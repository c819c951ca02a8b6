import Switchyard.Proofs.Gateway.Deeds

/-! The history of a gateway. What a deed makes of a gateway is accounted for by events, each of
which could happen when it came: apart from ticks these are only what the deed may bring about.
A run is accounted for by the events of its deeds, one after another; and each of these is calls to
the registry and to the hub, or nothing to them. -/
namespace Switchyard

namespace Gateway

/-! ### Stopping -/

/-- The ways in which a task that is told to stop comes to its end: it has no clock, it is dropped
on the spot, it exits in time, or it is dropped once the grace is over. -/
inductive Stopped (g : Gateway) (t : Task) (grace : Nat) : Gateway → Prop where
  | absent (hnone : g.agenda.get t = none) : Stopped g t grace g
  | atOnce (notices : List Notice) : Stopped g t grace ((g.dropTask t).say notices)
  | inTime {c : Clock} (hc : g.agenda.get t = some c) {last : Nat}
      (hlast : last ≤ g.elapsed + grace) (notices : List Notice) :
      Stopped g t grace
        ((((g.withClock t (c.signal g.elapsed)).workUntil (some t) last).dropTask t).say notices)
  | aborted {c : Clock} (hc : g.agenda.get t = some c) {last : Nat}
      (hlast : last ≤ g.elapsed + grace) (notices : List Notice) :
      Stopped g t grace
        (((((g.withClock t (c.signal g.elapsed)).workUntil (some t) last).dropTask t).passUntil
          (g.elapsed + grace)).say notices)

theorem lastMoment?_le {now grace last : Nat} (h : Clock.lastMoment? now grace = some last) :
    last ≤ now + grace := by
  unfold Clock.lastMoment? at h
  split at h
  · cases h
  · cases h
    exact Nat.sub_le _ _

theorem stopped (g : Gateway) (t : Task) (grace : Nat) :
    Stopped g t grace (g.stopTask t grace) := by
  unfold stopTask
  split
  · exact .absent (by assumption)
  · rename_i c hc
    split
    · exact .atOnce _
    · split
      · exact .atOnce _
      · rename_i last hlast
        dsimp only
        split
        · exact .inTime hc (lastMoment?_le hlast) _
        · exact .aborted hc (lastMoment?_le hlast) _

/-! ### Accounts -/

theorem after_rest {g g' : Gateway} (same : Same g g') : g.after (.rest g') = g' := by
  obtain ⟨hregistry, hhub, hagenda, hhealth, hdrill, -, -⟩ := same
  rw [after, ← hregistry, ← hhub, ← hagenda, ← hhealth, ← hdrill]

/-- Events that lead from one gateway to another, each possible when it comes and none outside a
scope. -/
structure Accounts (s : Scope) (g g' : Gateway) (es : List Event) : Prop where
  fits : g.Fits es
  leads : g.happen es = g'
  within : ∀ e ∈ es, e.Within s

namespace Accounts

variable {s : Scope} {g g' g'' : Gateway} {es more : List Event}

theorem nil (s : Scope) (g : Gateway) : Accounts s g g [] :=
  ⟨trivial, rfl, fun _ h => absurd h List.not_mem_nil⟩

theorem append (h : Accounts s g g' es) (h' : Accounts s g' g'' more) :
    Accounts s g g'' (es ++ more) where
  fits := fits_append.2 ⟨h.fits, by rw [h.leads]; exact h'.fits⟩
  leads := by rw [happen_append, h.leads, h'.leads]
  within e he := (List.mem_append.1 he).elim (h.within e) (h'.within e)

theorem one {e : Event} (hfits : g.CanHappen e) (hwithin : e.Within s) :
    Accounts s g (g.after e) [e] where
  fits := ⟨hfits, trivial⟩
  leads := rfl
  within x hx := by
    obtain rfl := List.mem_singleton.1 hx
    exact hwithin

/-- Ticks are in every scope. -/
theorem ticks (fits : g.Fits es) (leads : g.happen es = g') (hticks : ∀ e ∈ es, e.isTick = true) :
    Accounts s g g' es where
  fits := fits
  leads := leads
  within e he := by
    have htick := hticks e he
    cases e with
    | begin | finish => trivial
    | _ => cases htick

/-- What concerns neither the registry and the hub nor the tasks is one event. -/
theorem rest (same : Same g g') : Accounts s g g' [.rest g'] := by
  have hone := one (s := s) (g := g) (e := .rest g') trivial trivial
  rwa [after_rest same] at hone

end Accounts

section

variable {s : Scope} (g : Gateway)

theorem exists_account_workUntil (until? : Option Task) (target : Nat) :
    ∃ es, Accounts s g (g.workUntil until? target) es := by
  obtain ⟨es, hfits, hleads, hticks⟩ := g.ticks_workUntil until? target
  exact ⟨es, .ticks hfits hleads hticks⟩

theorem exists_account_passUntil (target : Nat) :
    ∃ es, Accounts s g (g.passUntil target) es := by
  obtain ⟨es, hes⟩ := g.exists_account_workUntil (s := s) none target
  have hmoment : Accounts s (g.workUntil none target) (g.passUntil target)
      [.rest (g.passUntil target)] := .one (e := .rest (g.passUntil target)) trivial trivial
  exact ⟨_, hes.append hmoment⟩

theorem account_dropTask {t : Task} (ht : t ∈ s.stops) (notices : List Notice) :
    Accounts s g ((g.dropTask t).say notices)
      ([.drop t] ++ [.rest ((g.dropTask t).say notices)]) :=
  (Accounts.one (e := .drop t) trivial ht).append (.rest (same_say _ notices))

theorem account_signal {t : Task} (ht : t ∈ s.stops) {c : Clock} (hc : g.agenda.get t = some c) :
    Accounts s g (g.withClock t (c.signal g.elapsed)) [.signal t] := by
  have hone := Accounts.one (s := s) (g := g) (e := .signal t) trivial ht
  rwa [after, hc] at hone

/-- To join is to subscribe. -/
theorem account_joined : Accounts s g g.joined ([.call .subscribe] ++ [.rest g.joined]) := by
  have hsocket : Accounts s (g.after (.call .subscribe)) g.joined [.rest g.joined] :=
    .one (e := .rest g.joined) trivial trivial
  exact (Accounts.one (e := .call .subscribe) trivial trivial).append hsocket

end

/-- To stop a task is to tell it, to let it work, and to drop it. -/
theorem Stopped.exists_account {s : Scope} {g g' : Gateway} {t : Task} {grace : Nat}
    (h : Stopped g t grace g') (ht : t ∈ s.stops) : ∃ es, Accounts s g g' es := by
  cases h with
  | absent => exact ⟨[], .nil s g⟩
  | atOnce notices => exact ⟨_, g.account_dropTask ht notices⟩
  | @inTime c hc last _ notices =>
    obtain ⟨es, hes⟩ :=
      (g.withClock t (c.signal g.elapsed)).exists_account_workUntil (s := s) (some t) last
    exact ⟨_, ((g.account_signal ht hc).append hes).append (account_dropTask _ ht notices)⟩
  | @aborted c hc last _ notices =>
    obtain ⟨es, hes⟩ :=
      (g.withClock t (c.signal g.elapsed)).exists_account_workUntil (s := s) (some t) last
    have hdropped := ((g.account_signal ht hc).append hes).append (.one (e := .drop t) trivial ht)
    obtain ⟨more, hmore⟩ := exists_account_passUntil (s := s) _ (g.elapsed + grace)
    exact ⟨_, (hdropped.append hmore).append (.rest (same_say _ notices))⟩

/-- What moves lead to is accounted for by events of their scope. -/
theorem Comes.exists_account {s : Scope} {g g' : Gateway} (h : Comes s g g') :
    ∃ es, Accounts s g g' es := by
  induction h with
  | refl => exact ⟨[], .nil s g⟩
  | call _ c hc ih =>
    obtain ⟨es, hes⟩ := ih
    exact ⟨_, hes.append (.one trivial hc)⟩
  | rest _ same ih =>
    obtain ⟨es, hes⟩ := ih
    exact ⟨_, hes.append (.rest same)⟩
  | @join g' _ _ ih =>
    obtain ⟨es, hes⟩ := ih
    exact ⟨_, hes.append g'.account_joined⟩
  | @pass g' _ target ih =>
    obtain ⟨es, hes⟩ := ih
    obtain ⟨more, hmore⟩ := g'.exists_account_passUntil (s := s) target
    exact ⟨_, hes.append hmore⟩
  | start _ t ht ih =>
    obtain ⟨es, hes⟩ := ih
    exact ⟨_, hes.append (.one (e := .start t) trivial ht)⟩
  | @stop g' _ t grace ht ih =>
    obtain ⟨es, hes⟩ := ih
    obtain ⟨more, hmore⟩ := (g'.stopped t grace).exists_account ht
    exact ⟨_, hes.append hmore⟩

/-! ### Histories -/

/-- Events that account for deeds, each of them in its scope. -/
inductive History : Gateway → List Deed → List Event → Prop where
  | nil (g : Gateway) : History g [] []
  | cons {g : Gateway} {d : Deed} {ds : List Deed} {es more : List Event}
      (first : Accounts d.scope g (g.perform d) es) (later : History (g.perform d) ds more) :
      History g (d :: ds) (es ++ more)

theorem exists_history (g : Gateway) (ds : List Deed) : ∃ es, History g ds es := by
  induction ds generalizing g with
  | nil => exact ⟨[], .nil g⟩
  | cons d ds ih =>
    obtain ⟨es, hes⟩ := (Comes.perform g d).exists_account
    obtain ⟨more, hmore⟩ := ih (g.perform d)
    exact ⟨es ++ more, .cons hes hmore⟩

namespace History

variable {g : Gateway} {ds later : List Deed} {es more : List Event}

theorem leads (h : History g ds es) : g.happen es = g.run ds := by
  induction h with
  | nil g => rfl
  | cons first _ ih => rw [happen_append, first.leads, run_cons, ih]

theorem fits (h : History g ds es) : g.Fits es := by
  induction h with
  | nil g => trivial
  | cons first _ ih => exact fits_append.2 ⟨first.fits, by rwa [first.leads]⟩

/-- Only what may start a task starts it. -/
theorem not_start {t : Task} (h : History g ds es) (hds : ∀ d ∈ ds, t ∉ d.scope.starts) :
    ∀ e ∈ es, e ≠ .start t := by
  induction h with
  | nil g => exact fun _ he => absurd he List.not_mem_nil
  | cons first _ ih =>
    intro e he
    rcases List.mem_append.1 he with he | he
    · rintro rfl
      exact hds _ List.mem_cons_self (first.within _ he)
    · exact ih (fun d hd => hds d (List.mem_cons_of_mem _ hd)) e he

end History

end Gateway

/-! ### Calls -/

/-- A feed comes to another one by calls. -/
def Feed.Reaches (f f' : Feed) : Prop := ∃ calls : List (Instant × Feed.Call), f' = f.run calls

namespace Feed.Reaches

variable {f f' f'' : Feed}

theorem refl (f : Feed) : Reaches f f := ⟨[], rfl⟩

theorem trans (h : Reaches f f') (h' : Reaches f' f'') : Reaches f f'' := by
  obtain ⟨before, rfl⟩ := h
  obtain ⟨after, rfl⟩ := h'
  exact ⟨before ++ after, (f.run_append before after).symm⟩

theorem one (f : Feed) (now : Instant) (c : Feed.Call) : Reaches f (f.step (now, c)) :=
  ⟨[(now, c)], rfl⟩

/-- Changes of the registry are calls. -/
theorem changes {r r' : Registry} (h : r.Reaches r') (hub : Hub) : Reaches ⟨r, hub⟩ ⟨r', hub⟩ := by
  obtain ⟨changes, rfl⟩ := h
  induction changes generalizing r with
  | nil => exact refl _
  | cons e rest ih => exact (one ⟨r, hub⟩ e.1 (.change e.2)).trans ih

/-- Of the calls only changes concern the registry. -/
theorem registry (h : Reaches f f') : f.registry.Reaches f'.registry := by
  obtain ⟨calls, rfl⟩ := h
  induction calls generalizing f with
  | nil => exact .refl _
  | cons e rest ih =>
    refine .trans ?_ (ih (f := f.step e))
    obtain ⟨now, c⟩ := e
    cases c with
    | change c => exact .one now c
    | _ => exact .refl _

/-- To receive for many is to receive for one after the other. -/
theorem receives (f : Feed) (now : Instant) (clients : List (Nat × Nat)) :
    Reaches f { f with hub := clients.foldl (fun hub p => (hub.receive p.1 p.2).1) f.hub } := by
  induction clients generalizing f with
  | nil => exact refl f
  | cons p rest ih => exact (one f now (.receive p.1 p.2)).trans (ih _)

end Feed.Reaches

namespace Gateway

open Feed (Reaches)

theorem flush_reaches (g : Gateway) : Reaches g.feed g.flush.feed := by
  obtain ⟨⟨clients, hclients⟩, -⟩ := flushAll_spec g.hub g.sockets
  have hfeed : g.flush.feed = ⟨g.registry, (flushAll g.hub g.sockets).1⟩ := rfl
  rw [hfeed, hclients]
  exact .receives g.feed g.now clients

theorem feed_startTask (g : Gateway) (t : Task) : (g.startTask t).feed = g.feed := by
  unfold startTask
  split <;> rfl

theorem feed_dropTask (g : Gateway) (t : Task) : (g.dropTask t).feed = g.feed := by
  cases t <;> rfl

theorem beginTick_feed_reaches (t : Task) (moment : Nat) (g : Gateway) :
    Reaches g.feed (beginTick t moment g).1.feed := by
  cases t with
  | broadcast =>
    exact (Reaches.one g.feed (g.atMoment moment).now .broadcast).trans
      ((g.atMoment moment).announce.1.flush_reaches)
  | health => exact .refl _
  | drill => exact .changes (beginTick_reaches .drill moment g) g.hub

theorem finishTick_feed_reaches (t : Task) (moment : Nat) (g : Gateway) :
    Reaches g.feed (finishTick t moment g).feed := by
  cases t with
  | broadcast => exact .refl _
  | health => exact .changes (finishTick_reaches .health moment g) g.hub
  | drill => exact .changes (finishTick_reaches .drill moment g) g.hub

/-- Every event is calls, or nothing to the feed. -/
theorem after_reaches (g : Gateway) (e : Event) : Reaches g.feed (g.after e).feed := by
  cases e with
  | call c => exact .one g.feed g.now c
  | start t => exact g.feed_startTask t ▸ .refl g.feed
  | signal t =>
    rw [after]
    split <;> exact .refl g.feed
  | drop t => exact g.feed_dropTask t ▸ .refl g.feed
  | begin t moment =>
    rw [after]
    split
    · exact beginTick_feed_reaches t moment g
    · exact .refl g.feed
  | finish t moment =>
    rw [after]
    split
    · exact finishTick_feed_reaches t moment g
    · exact .refl g.feed
  | rest other => exact .refl g.feed

theorem happen_reaches (g : Gateway) (es : List Event) : Reaches g.feed (g.happen es).feed := by
  induction es generalizing g with
  | nil => exact .refl _
  | cons e es ih => exact (g.after_reaches e).trans (ih _)

theorem Comes.reaches {s : Scope} {g g' : Gateway} (h : Comes s g g') :
    Reaches g.feed g'.feed := by
  obtain ⟨es, hes⟩ := h.exists_account
  rw [← hes.leads]
  exact g.happen_reaches es

theorem run_reaches (g : Gateway) (ds : List Deed) : Reaches g.feed (g.run ds).feed := by
  obtain ⟨es, hes⟩ := g.exists_history ds
  rw [← hes.leads]
  exact g.happen_reaches es

theorem exists_hub_run {g g' : Gateway} (h : Reaches g.feed g'.feed) :
    ∃ calls : List (Instant × Feed.Call), g'.hub = (g.feed.run calls).hub := by
  obtain ⟨calls, hcalls⟩ := h
  exact ⟨calls, congrArg Feed.hub hcalls⟩

end Gateway

end Switchyard
