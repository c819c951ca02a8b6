import Switchyard.Proofs.Hub.Delivery

/-! Updates of the hub. A broadcast has one update for every subscriber, and apart from that there
are only those that are sent by hand. A subscriber that is in the set at the end of a run has been
given all that the run had for it, since the first that is refused ends the membership. -/
namespace Switchyard

/-- The moment that an update bears. -/
def ServerMessage.updatedAt? : ServerMessage → Option Instant
  | .serviceUpdate _ timestamp => some timestamp
  | _ => none

namespace Feed

/-- The updates that a call has for a subscriber, by their moments. -/
def updates (client : Nat) (now : Instant) : Call → List Instant
  | .broadcast => [now]
  | .send c m => if c = client then m.updatedAt?.toList else []
  | _ => []

/-- Whether a call has no update for anyone. -/
def Call.Quiet (c : Call) : Prop := ∀ client now, updates client now c = []

variable {f f' f'' : Feed} {client : Nat} {s s' : Subscriber}

theorem addressed_updates (f : Feed) (now : Instant) (client : Nat) (c : Call) :
    (f.addressed now client c).toList.filterMap ServerMessage.updatedAt? =
      updates client now c := by
  cases c with
  | handle given text =>
    -- no answer is an update
    simp only [addressed, updates]
    split
    · split
      · rfl
      · rename_i m _
        cases m <;> rfl
    · rfl
  | send given m =>
    simp only [addressed, updates]
    split
    · cases m <;> rfl
    · rfl
  | _ => rfl

/-- A subscriber that is still in the set after a call has been given what that had for it. -/
theorem accepts_updates {now : Instant} {c : Call} (hs : f.hub.subscribers[client]? = some s)
    (hs' : (f.step (now, c)).hub.subscribers[client]? = some s') (hm : s'.member = true) :
    (f.accepts now client c).filterMap ServerMessage.updatedAt? = updates client now c := by
  obtain ⟨mid, hmid, hfate⟩ := fate f now client hs c
  obtain rfl := Option.some.inj (hmid.symm.trans hs')
  obtain ⟨hmember, -, hroom⟩ := hfate.member_iff.1 hm
  rw [← addressed_updates f now client c]
  cases hsent : f.addressed now client c with
  | none =>
    rw [accepts_of_unaddressed hs hsent]
    rfl
  | some m =>
    have hready : s.ready f.hub.capacity = true := by
      rcases hroom with hroom | hroom
      · cases hsent.symm.trans hroom
      · exact hroom
    rw [accepts_of_addressed hsent, Hub.member?, hs, Option.filter_some, if_pos hmember,
      Option.any_some, if_pos hready]
    rfl

/-- Over a run that is what all its calls had for it. -/
theorem accepted_updates (hs : f.hub.subscribers[client]? = some s)
    {calls : List (Instant × Call)} (hs' : (f.run calls).hub.subscribers[client]? = some s')
    (hm : s'.member = true) :
    (f.accepted client calls).filterMap ServerMessage.updatedAt? =
      calls.flatMap fun e => updates client e.1 e.2 := by
  induction calls generalizing f s with
  | nil => rfl
  | cons e rest ih =>
    obtain ⟨now, c⟩ := e
    obtain ⟨mid, hmid, -⟩ := fate f now client hs c
    -- who has left does not come back
    have hstill : mid.member = true := by
      obtain ⟨last, hran⟩ := exists_ran (f.step (now, c)) client hmid rest
      obtain rfl := Option.some.inj (hran.present.symm.trans hs')
      by_contra hout
      have hleft := (hran.outside (Bool.eq_false_iff.2 hout)).1
      cases hm.symm.trans hleft
    rw [accepted_cons, List.filterMap_append, accepts_updates hs hmid hstill, ih hmid hs',
      List.flatMap_cons]

/-! ### Calls and their updates -/

/-- A feed comes to another one by calls that have given updates for each subscriber. -/
def Announces (f f' : Feed) (out : Nat → List Instant) : Prop :=
  ∃ calls : List (Instant × Call), f' = f.run calls ∧
    ∀ client, (calls.flatMap fun e => updates client e.1 e.2) = out client

namespace Announces

theorem refl (f : Feed) : Announces f f fun _ => [] := ⟨[], rfl, fun _ => rfl⟩

theorem one (f : Feed) (now : Instant) (c : Call) :
    Announces f (f.step (now, c)) fun client => updates client now c :=
  ⟨[(now, c)], rfl, fun _ => List.append_nil _⟩

theorem trans {out more : Nat → List Instant} (h : Announces f f' out)
    (h' : Announces f' f'' more) : Announces f f'' fun client => out client ++ more client := by
  obtain ⟨before, rfl, hout⟩ := h
  obtain ⟨after, rfl, hmore⟩ := h'
  exact ⟨before ++ after, (f.run_append before after).symm, fun client => by
    rw [List.flatMap_append, hout, hmore]⟩

/-- Calls without updates may come before or after others. -/
theorem then_quiet {out : Nat → List Instant} (h : Announces f f' out)
    (h' : Announces f' f'' fun _ => []) : Announces f f'' out := by
  simpa only [List.append_nil] using h.trans h'

theorem change (f : Feed) (now : Instant) (c : Registry.Change) :
    Announces f { f with registry := (c.run now f.registry).1 } fun _ => [] :=
  one f now (.change c)

theorem receives (f : Feed) (now : Instant) (clients : List (Nat × Nat)) :
    Announces f { f with hub := clients.foldl (fun hub p => (hub.receive p.1 p.2).1) f.hub }
      fun _ => [] := by
  induction clients generalizing f with
  | nil => exact refl f
  | cons p rest ih => exact (one f now (.receive p.1 p.2)).then_quiet (ih _)

end Announces

end Feed

end Switchyard
