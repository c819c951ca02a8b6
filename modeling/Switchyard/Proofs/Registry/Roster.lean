import Mathlib.Data.Finset.Basic
import Switchyard.Proofs.Keyed
import Switchyard.Proofs.Registry.Chronicle

/-! The ids of a registry and the notices of its changes. Whoever hears the notices and nothing
else knows the ids: a registration adds one, a deregistration and an eviction take one away, and
everything else that is said leaves them alone. -/
namespace Switchyard

open Registry (Change)

namespace Notice

/-! ### The notices of entry -/

/-- The ids after a notice, as whoever hears it has them. -/
def replay (ids : Finset String) : Notice → Finset String
  | .registered id .. => insert id ids
  | .deregistered id _ | .evicted id .. => ids.erase id
  | _ => ids

/-- Whether a notice tells of an id that comes or goes. -/
def isEntry : Notice → Bool
  | .registered .. | .deregistered .. | .evicted .. => true
  | _ => false

/-- That a notice tells the truth about the ids at its moment: a registration says whether it
replaces a record, and what goes was there. -/
def Holds (ids : Finset String) : Notice → Prop
  | .registered id _ _ _ updated => updated = true ↔ id ∈ ids
  | .deregistered id _ | .evicted id .. => id ∈ ids
  | _ => True

theorem replay_of_other {n : Notice} (h : n.isEntry = false) (ids : Finset String) :
    n.replay ids = ids := by
  cases n <;> first | rfl | cases h

theorem holds_of_other {n : Notice} (h : n.isEntry = false) (ids : Finset String) :
    n.Holds ids := by
  cases n <;> trivial

/-- That no notice of a list tells of an entry. -/
def Others (notices : List Notice) : Prop := ∀ n ∈ notices, n.isEntry = false

theorem others_nil : Others [] := nofun

theorem Others.append {notices more : List Notice} (h : Others notices) (h' : Others more) :
    Others (notices ++ more) := List.forall_mem_append.2 ⟨h, h'⟩

/-- That notices lead from ids to ids, each of them being true when it is given. -/
inductive Replays : Finset String → List Notice → Finset String → Prop where
  | nil (ids : Finset String) : Replays ids [] ids
  | cons {ids ids' : Finset String} {n : Notice} {rest : List Notice} (holds : n.Holds ids)
      (tail : Replays (n.replay ids) rest ids') : Replays ids (n :: rest) ids'

/-- That notices, heard from the first on, give the ids that are there, and that each of them is
true of those that the notices before it have given. -/
structure Tracks (notices : List Notice) (ids : Finset String) : Prop where
  comes : notices.foldl replay ∅ = ids
  holds : ∀ before n after, notices = before ++ n :: after → n.Holds (before.foldl replay ∅)

namespace Replays

variable {ids ids' ids'' : Finset String} {notices more : List Notice}

theorem one {n : Notice} (holds : n.Holds ids) : Replays ids [n] (n.replay ids) :=
  .cons holds (.nil _)

theorem append (h : Replays ids notices ids') (h' : Replays ids' more ids'') :
    Replays ids (notices ++ more) ids'' := by
  induction h with
  | nil ids => exact h'
  | cons holds _ ih => exact .cons holds (ih h')

/-- Notices of other things change nothing. -/
theorem of_others (h : Others notices) (ids : Finset String) : Replays ids notices ids := by
  induction notices with
  | nil => exact .nil ids
  | cons n rest ih =>
    obtain ⟨hn, hrest⟩ := List.forall_mem_cons.1 h
    refine .cons (holds_of_other hn ids) ?_
    rw [replay_of_other hn]
    exact ih hrest

theorem foldl_eq (h : Replays ids notices ids') : notices.foldl replay ids = ids' := by
  induction h with
  | nil ids => rfl
  | cons _ _ ih => exact ih

/-- Each notice is true of the ids that those before it have led to. -/
theorem holds_at (h : Replays ids notices ids') {before after : List Notice} {n : Notice}
    (hsplit : notices = before ++ n :: after) : n.Holds (before.foldl replay ids) := by
  induction h generalizing before with
  | nil ids => exact absurd hsplit.symm (List.append_ne_nil_of_right_ne_nil _ (by simp))
  | cons holds _ ih =>
    cases before with
    | nil =>
      cases hsplit
      exact holds
    | cons first before =>
      cases hsplit
      exact ih rfl

theorem tracks (h : Replays ∅ notices ids) : Tracks notices ids where
  comes := h.foldl_eq
  holds _ _ _ hsplit := h.holds_at hsplit

end Replays

end Notice

namespace Registry

/-! ### The ids of the records -/

variable {r : Registry} {now : Instant}

/-- The ids that a listing shows. -/
def ids (r : Registry) : Finset String := r.list.keys.toFinset

theorem mem_ids {id : String} : id ∈ r.ids ↔ (r.get? id).isSome := by
  rw [ids, List.mem_toFinset]
  exact Keyed.mem_keys_iff _

theorem ids_congr {r' : Registry} (h : ∀ id, (r'.get? id).isSome = (r.get? id).isSome) :
    r'.ids = r.ids := by
  ext id
  rw [mem_ids, mem_ids, h]

/-! ### The notices of one change -/

theorem replays_register (q : Registration) :
    Notice.Replays r.ids (r.register now q).notices (r.register now q).state.ids := by
  cases h : q.defect? with
  | some d =>
    rw [register_of_defect h]
    exact .nil _
  | none =>
    have hids : (r.register now q).state.ids = insert (r.idFor now q) r.ids := by
      ext id
      rw [mem_ids, get?_register_of_sound h, Finset.mem_insert, mem_ids]
      split <;> simp [*]
    rw [hids, register_of_sound h]
    exact .one mem_ids.symm

theorem replays_deregister (id : String) :
    Notice.Replays r.ids (r.deregister id).notices (r.deregister id).state.ids := by
  have hids : (r.deregister id).state.ids = r.ids.erase id := by
    ext other
    rw [mem_ids, get?_deregister, Finset.mem_erase, mem_ids]
    split <;> simp [*]
  rw [hids, deregister]
  split
  · rename_i i hi
    exact .one (mem_ids.2 (Option.isSome_of_eq_some hi))
  · rename_i hi
    have hnot : id ∉ r.ids := by simp [mem_ids, hi]
    rw [Finset.erase_eq_of_notMem hnot]
    exact .of_others (by simp [Notice.Others, Notice.isEntry]) _

theorem replays_fold (id : String) (healthy : Bool) :
    Notice.Replays r.ids (r.fold now id healthy).notices (r.fold now id healthy).state.ids := by
  cases h : r.get? id with
  | none =>
    rw [fold_of_absent h]
    exact .nil _
  | some i =>
    have hheld : id ∈ r.ids := mem_ids.2 (Option.isSome_of_eq_some h)
    by_cases he : r.evicts (probed now healthy i) = true
    · have hids : (r.fold now id healthy).state.ids = r.ids.erase id := by
        ext other
        rw [mem_ids, get?_fold, h, Option.bind_some, afterProbe, if_pos he, Finset.mem_erase,
          mem_ids]
        split <;> simp [*]
      rw [hids, fold_of_evicts h he]
      exact .one hheld
    · have hids : (r.fold now id healthy).state.ids = r.ids := by
        refine ids_congr fun other => ?_
        rw [get?_fold, h, Option.bind_some, afterProbe, if_neg he]
        split <;> simp [*]
      rw [hids, fold_of_keeps h he]
      exact .nil _

theorem replays_foldProbed (copy : Instance) (healthy : Bool) :
    Notice.Replays r.ids (r.foldProbed now copy healthy).notices
      (r.foldProbed now copy healthy).state.ids := by
  rcases foldProbed_eq_or r now copy healthy with h | h
  · rw [h]
    exact replays_fold copy.id healthy
  · rw [h]
    exact .nil _

/-- The notices of a change tell which ids come and go by it. -/
theorem replays_change (c : Change) :
    Notice.Replays r.ids (c.run now r).2 (c.run now r).1.ids := by
  cases c with
  | register q => exact replays_register q
  | deregister id => exact replays_deregister id
  | fold id healthy => exact replays_fold id healthy
  | foldProbed copy healthy => exact replays_foldProbed copy healthy

theorem replays_run (r : Registry) (calls : List (Instant × Change)) :
    Notice.Replays r.ids (r.run calls).2 (r.run calls).1.ids := by
  induction calls generalizing r with
  | nil => exact .nil _
  | cons e rest ih => exact (replays_change e.2).append (ih _)

/-! ### What is ignored -/

/-- Whether a caller hears that a change has been refused, or has found nothing to change. -/
def Echo.isIdle : Echo → Bool
  | .registered (.error _) | .deregistered false | .folded .missing | .folded .stale => true
  | _ => false

theorem fold_of_idle {id : String} {healthy : Bool}
    (h : (Echo.folded (r.fold now id healthy).answer).isIdle = true) :
    r.fold now id healthy = ⟨r, .missing, []⟩ := by
  cases hi : r.get? id with
  | none => exact fold_of_absent hi
  | some i =>
    obtain ⟨hmissing, hstale⟩ := fold_answer_of_held now healthy hi
    cases ha : (r.fold now id healthy).answer with
    | missing => exact absurd ha hmissing
    | stale => exact absurd ha hstale
    | _ =>
      rw [ha] at h
      cases h

/-- A change that is refused or ignored tells of no entry. -/
theorem others_of_idle {c : Change} (h : (c.echo now r).isIdle = true) :
    Notice.Others (c.run now r).2 := by
  cases c with
  | register q =>
    cases hq : q.defect? with
    | some d =>
      simp [Change.run, register_of_defect hq, Notice.others_nil]
    | none =>
      rw [Change.echo, register_of_sound hq] at h
      cases h
  | deregister id =>
    rw [Change.echo, deregister_answer] at h
    cases hi : r.get? id with
    | some i =>
      rw [hi] at h
      cases h
    | none =>
      simp [Change.run, deregister, hi, Notice.Others, Notice.isEntry]
  | fold id healthy =>
    simp [Change.run, fold_of_idle h, Notice.others_nil]
  | foldProbed copy healthy =>
    rcases foldProbed_eq_or r now copy healthy with he | he
    · rw [Change.echo, he] at h
      simp [Change.run, he, fold_of_idle h, Notice.others_nil]
    · simp [Change.run, he, Notice.others_nil]

end Registry

end Switchyard
