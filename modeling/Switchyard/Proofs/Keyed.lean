import Mathlib.Algebra.Ring.Nat
import Mathlib.Tactic.Common
import Switchyard.Keyed

/-! Sums over the values of a finite map, and maps with the same look-ups. A value that is
stored or erased moves a sum by itself and by the value that stood there before. -/
namespace Switchyard.Keyed

universe u

variable {α : Type u}

/-! ### Sums -/

/-- The sum of a measure of the values. -/
def sum (f : α → Nat) (m : Keyed α) : Nat := (m.values.map f).sum

theorem lookup_of_lt {key : String} {l : List (String × α)}
    (h : ∀ e ∈ l, key < e.1) : lookup key l = none :=
  lookup_eq_none fun e he heq => String.lt_irrefl _ (heq ▸ h e he)

theorem sum_place (f : α → Nat) (key : String) (value : α) {l : List (String × α)}
    (h : l.Pairwise (fun a b => a.1 < b.1)) :
    ((place key value l).map fun e => f e.2).sum + ((lookup key l).map f).getD 0 =
      (l.map fun e => f e.2).sum + f value := by
  induction l with
  | nil => simp [place, lookup]
  | cons p rest ih =>
    obtain ⟨k, a⟩ := p
    obtain ⟨hk, hrest⟩ := List.pairwise_cons.1 h
    unfold place
    split
    · rename_i hlt
      have hnone : lookup key ((k, a) :: rest) = none := by
        apply lookup_of_lt
        intro e he
        rcases List.mem_cons.1 he with rfl | he
        · exact hlt
        · exact String.lt_trans hlt (hk e he)
      simp [hnone]
      omega
    · split
      · rename_i heq
        simp [lookup, heq]
        omega
      · rename_i hne
        have := ih hrest
        simp only [lookup, if_neg hne, List.map_cons, List.sum_cons]
        omega

theorem sum_remove (f : α → Nat) (key : String) (l : List (String × α)) :
    ((remove key l).map fun e => f e.2).sum + ((lookup key l).map f).getD 0 =
      (l.map fun e => f e.2).sum := by
  induction l with
  | nil => simp [remove, lookup]
  | cons p rest ih =>
    obtain ⟨k, a⟩ := p
    unfold remove
    split
    · rename_i heq
      simp [lookup, heq]
      omega
    · rename_i hne
      simp only [lookup, if_neg hne, List.map_cons, List.sum_cons]
      omega

theorem sum_insert (f : α → Nat) (m : Keyed α) (key : String) (value : α) :
    (m.insert key value).sum f + ((m.get? key).map f).getD 0 = m.sum f + f value := by
  simpa [sum, values, insert, get?, Function.comp_def] using sum_place f key value m.ordered

theorem sum_erase (f : α → Nat) (m : Keyed α) (key : String) :
    (m.erase key).sum f + ((m.get? key).map f).getD 0 = m.sum f := by
  simpa [sum, values, erase, get?, Function.comp_def] using sum_remove f key m.entries

theorem size_eq_sum (m : Keyed α) : m.size = m.sum fun _ => 1 := by
  simp [size, sum, values, Function.comp_def, List.map_const']

theorem size_insert (m : Keyed α) (key : String) (value : α) :
    (m.insert key value).size = m.size + if (m.get? key).isSome then 0 else 1 := by
  have h := sum_insert (fun _ => 1) m key value
  rw [← size_eq_sum, ← size_eq_sum] at h
  cases hget : m.get? key with
  | none => simpa [hget] using h
  | some old => simpa [hget] using h

theorem size_erase (m : Keyed α) (key : String) :
    (m.erase key).size + (if (m.get? key).isSome then 1 else 0) = m.size := by
  have h := sum_erase (fun _ => 1) m key
  rw [← size_eq_sum, ← size_eq_sum] at h
  cases hget : m.get? key with
  | none => simpa [hget] using h
  | some old => simpa [hget] using h

/-! ### Keys -/

theorem mem_keys_iff (m : Keyed α) {key : String} : key ∈ m.keys ↔ (m.get? key).isSome := by
  rw [keys, List.mem_map, Option.isSome_iff_exists]
  constructor
  · rintro ⟨⟨key, value⟩, he, rfl⟩
    exact ⟨value, (get?_eq_some_iff m).2 he⟩
  · rintro ⟨value, hvalue⟩
    exact ⟨(key, value), (get?_eq_some_iff m).1 hvalue, rfl⟩

/-! ### Equality -/

theorem entries_eq {l l' : List (String × α)} (h : l.Pairwise (fun a b => a.1 < b.1))
    (h' : l'.Pairwise (fun a b => a.1 < b.1)) (same : ∀ e, e ∈ l ↔ e ∈ l') : l = l' := by
  induction l generalizing l' with
  | nil =>
    cases l' with
    | nil => rfl
    | cons e rest => exact absurd ((same e).2 List.mem_cons_self) (List.not_mem_nil)
  | cons e rest ih =>
    cases l' with
    | nil => exact absurd ((same e).1 List.mem_cons_self) (List.not_mem_nil)
    | cons e' rest' =>
      obtain ⟨he, hrest⟩ := List.pairwise_cons.1 h
      obtain ⟨he', hrest'⟩ := List.pairwise_cons.1 h'
      -- the least key of one list is the least key of the other
      have hee : e = e' := by
        rcases List.mem_cons.1 ((same e).1 List.mem_cons_self) with heq | hin
        · exact heq
        · rcases List.mem_cons.1 ((same e').2 List.mem_cons_self) with heq | hin'
          · exact heq.symm
          · exact absurd (String.lt_trans (he e' hin') (he' e hin)) (String.lt_irrefl _)
      subst hee
      have hne {x : String × α} (hlt : e.1 < x.1) : x ≠ e := fun heq =>
        String.lt_irrefl _ (heq ▸ hlt)
      rw [ih hrest hrest' fun x => ?_]
      constructor
      · intro hx
        exact (List.mem_cons.1 ((same x).1 (List.mem_cons_of_mem _ hx))).resolve_left
          (hne (he x hx))
      · intro hx
        exact (List.mem_cons.1 ((same x).2 (List.mem_cons_of_mem _ hx))).resolve_left
          (hne (he' x hx))

/-- Maps with the same look-ups are the same. -/
theorem ext_get? {m n : Keyed α} (h : ∀ key, m.get? key = n.get? key) : m = n := by
  have hentries : m.entries = n.entries := by
    apply entries_eq m.ordered n.ordered
    rintro ⟨key, value⟩
    rw [← get?_eq_some_iff, ← get?_eq_some_iff, h]
  cases m
  cases n
  cases hentries
  rfl

end Switchyard.Keyed
