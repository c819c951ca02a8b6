/-! Finite maps with text keys, entries in strictly increasing key order. The
order belongs to the type, so two maps with the same look-ups are equal and a
listing needs no sort. -/
namespace Switchyard

universe u v

/-- A finite map from texts, listed in strictly increasing key order. -/
structure Keyed (α : Type u) where
  entries : List (String × α)
  ordered : entries.Pairwise (fun a b => a.1 < b.1)
deriving DecidableEq

namespace Keyed

variable {α : Type u} {β : Type v}

/-! ### Entry lists -/

def lookup (key : String) : List (String × α) → Option α
  | [] => none
  | (k, a) :: rest => if key = k then some a else lookup key rest

def place (key : String) (value : α) : List (String × α) → List (String × α)
  | [] => [(key, value)]
  | (k, a) :: rest =>
    if key < k then (key, value) :: (k, a) :: rest
    else if key = k then (key, value) :: rest
    else (k, a) :: place key value rest

def remove (key : String) : List (String × α) → List (String × α)
  | [] => []
  | (k, a) :: rest => if key = k then rest else (k, a) :: remove key rest

theorem mem_place {key : String} {value : α} {e : String × α} :
    ∀ {l : List (String × α)}, e ∈ place key value l → e = (key, value) ∨ e ∈ l
  | [], h => by simpa [place] using h
  | (k, a) :: rest, h => by
    unfold place at h
    split at h
    · simpa using h
    · split at h
      · rcases List.mem_cons.1 h with rfl | h
        · exact Or.inl rfl
        · exact Or.inr (List.mem_cons_of_mem _ h)
      · rcases List.mem_cons.1 h with rfl | h
        · exact Or.inr List.mem_cons_self
        · exact (mem_place h).imp_right (List.mem_cons_of_mem _)

theorem mem_remove {key : String} {e : String × α} :
    ∀ {l : List (String × α)}, e ∈ remove key l → e ∈ l
  | [], h => h
  | (k, a) :: rest, h => by
    unfold remove at h
    split at h
    · exact List.mem_cons_of_mem _ h
    · rcases List.mem_cons.1 h with rfl | h
      · exact List.mem_cons_self
      · exact List.mem_cons_of_mem _ (mem_remove h)

theorem lt_of_not_lt_of_ne {a b : String} (h : ¬ a < b) (ne : a ≠ b) : b < a := by
  rcases Decidable.em (b < a) with hlt | hlt
  · exact hlt
  · exact absurd (String.le_antisymm (String.not_lt.1 hlt) (String.not_lt.1 h)) ne

theorem place_ordered {key : String} {value : α} :
    ∀ {l : List (String × α)}, l.Pairwise (fun a b => a.1 < b.1) →
      (place key value l).Pairwise (fun a b => a.1 < b.1)
  | [], _ => by simp [place]
  | (k, a) :: rest, h => by
    obtain ⟨hk, hrest⟩ := List.pairwise_cons.1 h
    unfold place
    split
    · rename_i hlt
      refine List.pairwise_cons.2 ⟨fun e he => ?_, h⟩
      rcases List.mem_cons.1 he with rfl | he
      · exact hlt
      · exact String.lt_trans hlt (hk e he)
    · split
      · rename_i heq
        subst heq
        exact List.pairwise_cons.2 ⟨hk, hrest⟩
      · rename_i hlt hne
        refine List.pairwise_cons.2 ⟨fun e he => ?_, place_ordered hrest⟩
        rcases mem_place he with rfl | he
        · exact lt_of_not_lt_of_ne hlt hne
        · exact hk e he

theorem remove_ordered {key : String} :
    ∀ {l : List (String × α)}, l.Pairwise (fun a b => a.1 < b.1) →
      (remove key l).Pairwise (fun a b => a.1 < b.1)
  | [], h => h
  | (k, a) :: rest, h => by
    obtain ⟨hk, hrest⟩ := List.pairwise_cons.1 h
    unfold remove
    split
    · exact hrest
    · exact List.pairwise_cons.2 ⟨fun e he => hk e (mem_remove he), remove_ordered hrest⟩

/-! ### Operations -/

def empty : Keyed α := ⟨[], List.Pairwise.nil⟩

instance : EmptyCollection (Keyed α) := ⟨empty⟩
instance : Inhabited (Keyed α) := ⟨empty⟩

def get? (m : Keyed α) (key : String) : Option α := lookup key m.entries

def getD (m : Keyed α) (key : String) (default : α) : α := (m.get? key).getD default

def contains (m : Keyed α) (key : String) : Bool := (m.get? key).isSome

/-- Stores `value` under `key`, in place of an earlier value. -/
def insert (m : Keyed α) (key : String) (value : α) : Keyed α :=
  ⟨place key value m.entries, place_ordered m.ordered⟩

def erase (m : Keyed α) (key : String) : Keyed α :=
  ⟨remove key m.entries, remove_ordered m.ordered⟩

def keys (m : Keyed α) : List String := m.entries.map Prod.fst

def values (m : Keyed α) : List α := m.entries.map Prod.snd

def size (m : Keyed α) : Nat := m.entries.length

/-- Later pairs win over earlier ones of the same key. -/
def ofList (pairs : List (String × α)) : Keyed α :=
  pairs.foldl (fun m p => m.insert p.1 p.2) empty

def map (f : α → β) (m : Keyed α) : Keyed β :=
  ⟨m.entries.map (fun p => (p.1, f p.2)),
    List.pairwise_map.2 (m.ordered.imp (fun h => h))⟩

/-! ### Look-up after an operation -/

theorem lookup_place_self (key : String) (value : α) (l : List (String × α)) :
    lookup key (place key value l) = some value := by
  induction l with
  | nil => simp [place, lookup]
  | cons p rest ih =>
    obtain ⟨k, a⟩ := p
    unfold place
    split
    · simp [lookup]
    · split
      · simp [lookup]
      · rename_i hne
        simp [lookup, hne, ih]

theorem lookup_place_ne {key other : String} (h : other ≠ key) (value : α)
    (l : List (String × α)) : lookup other (place key value l) = lookup other l := by
  induction l with
  | nil => simp [place, lookup, h]
  | cons p rest ih =>
    obtain ⟨k, a⟩ := p
    unfold place
    split
    · simp [lookup, h]
    · split
      · rename_i heq
        subst heq
        simp [lookup, h]
      · simp [lookup, ih]

theorem lookup_eq_none {key : String} {l : List (String × α)}
    (h : ∀ e ∈ l, e.1 ≠ key) : lookup key l = none := by
  induction l with
  | nil => rfl
  | cons p rest ih =>
    have hp : key ≠ p.1 := fun he => h p List.mem_cons_self he.symm
    simp only [lookup, if_neg hp]
    exact ih fun e he => h e (List.mem_cons_of_mem _ he)

theorem lookup_remove_self {key : String} {l : List (String × α)}
    (h : l.Pairwise (fun a b => a.1 < b.1)) : lookup key (remove key l) = none := by
  induction l with
  | nil => rfl
  | cons p rest ih =>
    obtain ⟨k, a⟩ := p
    obtain ⟨hk, hrest⟩ := List.pairwise_cons.1 h
    unfold remove
    split
    · rename_i heq
      subst heq
      exact lookup_eq_none fun e he heq => String.lt_irrefl _ (heq ▸ hk e he)
    · rename_i hne
      simp only [lookup, if_neg hne, ih hrest]

theorem lookup_remove_ne {key other : String} (h : other ≠ key) (l : List (String × α)) :
    lookup other (remove key l) = lookup other l := by
  induction l with
  | nil => rfl
  | cons p rest ih =>
    obtain ⟨k, a⟩ := p
    unfold remove
    split
    · rename_i heq
      subst heq
      simp [lookup, h]
    · simp [lookup, ih]

@[simp] theorem get?_empty (key : String) : (empty : Keyed α).get? key = none := rfl

@[simp] theorem get?_insert_self (m : Keyed α) (key : String) (value : α) :
    (m.insert key value).get? key = some value := lookup_place_self _ _ _

theorem get?_insert_of_ne (m : Keyed α) {key other : String} (value : α) (h : other ≠ key) :
    (m.insert key value).get? other = m.get? other := lookup_place_ne h _ _

@[simp] theorem get?_erase_self (m : Keyed α) (key : String) :
    (m.erase key).get? key = none := lookup_remove_self m.ordered

theorem get?_erase_of_ne (m : Keyed α) {key other : String} (h : other ≠ key) :
    (m.erase key).get? other = m.get? other := lookup_remove_ne h _

theorem get?_insert (m : Keyed α) (key : String) (value : α) (other : String) :
    (m.insert key value).get? other = if other = key then some value else m.get? other := by
  split
  · rename_i heq
    rw [heq, get?_insert_self]
  · rename_i hne
    exact get?_insert_of_ne m value hne

theorem get?_erase (m : Keyed α) (key other : String) :
    (m.erase key).get? other = if other = key then none else m.get? other := by
  split
  · rename_i heq
    rw [heq, get?_erase_self]
  · rename_i hne
    exact get?_erase_of_ne m hne

/-! ### Look-up and listings -/

theorem mem_of_lookup {key : String} {value : α} {l : List (String × α)}
    (h : lookup key l = some value) : (key, value) ∈ l := by
  induction l with
  | nil => cases h
  | cons p rest ih =>
    obtain ⟨k, a⟩ := p
    unfold lookup at h
    split at h
    · rename_i heq
      cases h
      rw [heq]
      exact List.mem_cons_self
    · exact List.mem_cons_of_mem _ (ih h)

theorem lookup_of_mem {key : String} {value : α} {l : List (String × α)}
    (h : l.Pairwise (fun a b => a.1 < b.1)) (he : (key, value) ∈ l) :
    lookup key l = some value := by
  induction l with
  | nil => cases he
  | cons p rest ih =>
    obtain ⟨hp, hrest⟩ := List.pairwise_cons.1 h
    rcases List.mem_cons.1 he with rfl | he
    · simp [lookup]
    · have hne : key ≠ p.1 := fun heq => String.lt_irrefl _ (heq ▸ hp _ he)
      simp only [lookup, if_neg hne]
      exact ih hrest he

theorem get?_eq_some_iff (m : Keyed α) {key : String} {value : α} :
    m.get? key = some value ↔ (key, value) ∈ m.entries :=
  ⟨mem_of_lookup, lookup_of_mem m.ordered⟩

/-- A listing shows what can be looked up, and nothing else. -/
theorem mem_values_iff (m : Keyed α) {value : α} :
    value ∈ m.values ↔ ∃ key, m.get? key = some value := by
  simp only [values, List.mem_map, Prod.exists, get?_eq_some_iff]
  constructor
  · rintro ⟨key, a, he, rfl⟩
    exact ⟨key, he⟩
  · rintro ⟨key, he⟩
    exact ⟨key, value, he, rfl⟩

end Keyed

end Switchyard
