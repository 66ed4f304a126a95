import GuardedStore.Proofs.Rounds.Record
import GuardedStore.Proofs.Run.Signalling

/-!
The course of a run: whom it calls, in which order, and from which world each call starts.

A run that comes to an end has handed each event to whoever could be woken when its turn came, and
then has had everyone notified act once. A run that does not has stopped in one of these calls, and
what would have come after it has not begun.
-/
namespace GuardedStore

/-- How a computation failed to give a result. -/
def Outcome.failure? {α : Type} : Outcome α → Option (Outcome Empty)
  | .done _ => none
  | .panicked text => some (.panicked text)
  | .stuck => some .stuck

/-- One more at the end, unless it was there before. -/
theorem eraseDups_concat {α : Type} [BEq α] [LawfulBEq α] (l : List α) (x : α) :
    (l ++ [x]).eraseDups = if l.contains x then l.eraseDups else l.eraseDups ++ [x] := by
  rw [List.eraseDups_append]
  by_cases hx : x ∈ l
  · simp [List.removeAll, hx]
  · simp [List.removeAll, hx, List.eraseDups_cons]

theorem nodup_eraseDups {α : Type} [BEq α] [LawfulBEq α] (l : List α) : l.eraseDups.Nodup := by
  induction hn : l.length using Nat.strongRecOn generalizing l with
  | ind n ih =>
    cases l with
    | nil => simp
    | cons a l =>
      rw [List.eraseDups_cons, List.nodup_cons, List.mem_eraseDups]
      refine ⟨fun ha => by simp at ha, ih _ ?_ _ rfl⟩
      rw [← hn]
      exact Nat.lt_succ_of_le (List.length_filter_le _ l)

namespace Engine

variable {α β γ : Type} {call : Nat → Engine Unit} {d : Nat} {w v : World}

/-- What fails has failed in one of its parts. -/
theorem failed_of_bind {m : Engine α} {f : α → Engine β} {o : Outcome β} {x : Outcome Empty}
    (h : (m >>= f) w = (o, v)) (hx : o.failure? = some x) :
    (∃ o', m w = (o', v) ∧ o'.failure? = some x) ∨
      ∃ a u, m w = (.done a, u) ∧ f a u = (o, v) := by
  rw [bind_apply] at h
  rcases hm : m w with ⟨a | text | _, u⟩ <;> rw [hm] at h
  · exact .inr ⟨a, u, rfl, h⟩
  all_goals
    cases h
    exact .inl ⟨_, rfl, hx⟩

/-- What fails in doing one thing after another has failed in one of them. -/
theorem failed_of_forM {f : γ → Engine Unit} {cs : List γ} {o : Outcome Unit} {x : Outcome Empty}
    (h : cs.forM f w = (o, v)) (hx : o.failure? = some x) :
    ∃ before c after u o', cs = before ++ c :: after ∧ before.forM f w = (.done (), u) ∧
      f c u = (o', v) ∧ o'.failure? = some x := by
  induction cs generalizing w with
  | nil =>
    cases h
    cases hx
  | cons c cs ih =>
    change (f c >>= fun _ => cs.forM f) w = (o, v) at h
    rcases failed_of_bind h hx with ⟨o', hc, hx⟩ | ⟨_, u, hc, h⟩
    · exact ⟨[], c, cs, w, o', rfl, rfl, hc, hx⟩
    · obtain ⟨before, c', after, z, o', rfl, hb, hc', hx⟩ := ih h
      refine ⟨c :: before, c', after, z, o', rfl, ?_, hc', hx⟩
      change (f c >>= fun _ => before.forM f) w = (.done (), z)
      rw [bind_of_done hc, hb]

/-- What comes to an end in doing one thing after another has come through each of them. -/
theorem done_of_forM {f : γ → Engine Unit} {before after : List γ} {c : γ}
    (h : (before ++ c :: after).forM f w = (.done (), v)) :
    ∃ u z, before.forM f w = (.done (), u) ∧ f c u = (.done (), z) ∧
      after.forM f z = (.done (), v) := by
  induction before generalizing w with
  | nil =>
    change (f c >>= fun _ => after.forM f) w = (.done (), v) at h
    obtain ⟨_, z, hc, h⟩ := done_of_bind h
    exact ⟨w, z, rfl, hc, h⟩
  | cons b before ih =>
    change (f b >>= fun _ => (before ++ c :: after).forM f) w = (.done (), v) at h
    obtain ⟨_, y, hb, h⟩ := done_of_bind h
    obtain ⟨u, z, hu, hc, h⟩ := ih h
    refine ⟨u, z, ?_, hc, h⟩
    change (f b >>= fun _ => before.forM f) w = (.done (), u)
    rw [bind_of_done hb, hu]

end Engine

/-- The progress of a run with more subscribers notified. -/
def Engine.Progress.tell (p : Engine.Progress) : List Subscriber → Engine.Progress
  | [] => p
  | s :: subscribers =>
    let woken := if p.woken.contains s then p.woken else p.woken ++ [s]
    tell { notified := p.notified + 1, woken } subscribers

namespace Engine

/-- Whoever is notified is woken in the order of the first notifications. -/
theorem tell_eq (before subscribers : List Subscriber) (n : Nat) :
    Progress.tell { notified := n, woken := before.eraseDups } subscribers =
      { notified := n + subscribers.length, woken := (before ++ subscribers).eraseDups } := by
  induction subscribers generalizing before n with
  | nil => simp [Progress.tell]
  | cons s subscribers ih =>
    have hw : (if before.eraseDups.contains s then before.eraseDups else before.eraseDups ++ [s]) =
        (before ++ [s]).eraseDups := by
      rw [eraseDups_concat]
      simp [List.mem_eraseDups]
    rw [Progress.tell, hw, ih, List.append_assoc, List.length_cons, List.singleton_append,
      Nat.add_assoc, Nat.add_comm 1]

theorem tell_start (subscribers : List Subscriber) : Progress.tell {} subscribers =
    { notified := subscribers.length, woken := subscribers.eraseDups } := by
  have h := tell_eq [] subscribers 0
  rwa [Nat.zero_add, List.nil_append] at h

theorem tell_append (p : Progress) (first next : List Subscriber) :
    p.tell (first ++ next) = (p.tell first).tell next := by
  induction first generalizing p with
  | nil => rfl
  | cons s first ih => exact ih _

/-- Whoever is woken in the end was woken before or has been notified. -/
theorem mem_woken_of_tell {x : Subscriber} (subscribers : List Subscriber) :
    ∀ {p : Progress}, x ∈ (p.tell subscribers).woken → x ∈ p.woken ∨ x ∈ subscribers := by
  induction subscribers with
  | nil => exact .inl
  | cons s subscribers ih =>
    intro p hx
    rcases ih hx with hx | hx
    · dsimp only at hx
      split at hx
      · exact .inl hx
      · refine (List.mem_append.mp hx).imp_right fun hx => ?_
        exact List.mem_singleton.mp hx ▸ List.mem_cons_self
    · exact .inr (List.mem_cons_of_mem s hx)

variable {call : Nat → Engine Unit} {d : Nat}

theorem notifyAll_eq (call : Nat → Engine Unit) (event : Event) (subscribers : List Subscriber) :
    ∀ p, notifyAll call event p subscribers =
      (subscribers.forM (notify call · event) >>= fun _ => pure (p.tell subscribers)) := by
  induction subscribers with
  | nil => exact fun p => rfl
  | cons s subscribers ih =>
    intro p
    change _ = ((notify call s event >>= fun _ => subscribers.forM (notify call · event)) >>=
      fun _ => pure (p.tell (s :: subscribers)))
    rw [bind_assoc, notifyAll]
    exact bind_congr fun _ => ih _

end Engine

/-- An event has been handed to whoever can be woken, and they are held. -/
def World.dealing (d : Nat) (e : Event) (w : World) : World :=
  (w.handing d e).takeHold (w.liveSubscribers d e.source)

namespace Engine

variable (call : Nat → Engine Unit) (d : Nat)

/-- From one world to another, each event in turn was handed to whoever could be woken when its turn
came, and they were notified of it in order of subscription. -/
inductive Delivers : World → List (Event × List Subscriber) → World → Prop
  | nil (w : World) : Delivers w [] w
  | cons {w v w' : World} {e : Event} {legs : List (Event × List Subscriber)} :
    (w.liveSubscribers d e.source).forM (notify call · e) (w.dealing d e) = (.done (), v) →
      Delivers v legs w' → Delivers w ((e, w.liveSubscribers d e.source) :: legs) w'

/-- Some events were delivered; of the next one, only some subscribers had been notified when
notifying another one failed. -/
structure Breaks (w : World) (legs : List (Event × List Subscriber)) (e : Event)
    (before : List Subscriber) (s : Subscriber) (after : List Subscriber) (later : List Event)
    (x : Outcome Empty) (events : List Event) (v : World) : Prop where
  events : events = legs.map (·.1) ++ e :: later
  course : ∃ u z o, Delivers call d w legs u ∧
    u.liveSubscribers d e.source = before ++ s :: after ∧
    before.forM (notify call · e) (u.dealing d e) = (.done (), z) ∧
    notify call s e z = (o, v) ∧ o.failure? = some x

/-- All events of a round were delivered; of those it woke, only some had acted when having another
one act failed. -/
structure Stalls (w : World) (r : Round) (before : List Subscriber) (s : Subscriber)
    (after : List Subscriber) (x : Outcome Empty) (v : World) : Prop where
  complete : r.Complete
  woken : r.woken = before ++ s :: after
  course : ∃ u z o, Delivers call d w r.legs u ∧ before.forM (execute call) u = (.done (), z) ∧
    execute call s z = (o, v) ∧ o.failure? = some x

/-- All that was queued was taken and delivered, and whoever was notified acted once, in the order of
the first notifications; then the round was counted, unless there was nothing to deliver. -/
structure Completes (w : World) (r : Round) (v : World) : Prop where
  taken : r.taken = (w.domain d).queue
  complete : r.Complete
  course : ∃ u, Delivers call d (w.taking d) r.legs u ∧
    if r.taken = [] then v = u
    else ∃ z, r.woken.forM (execute call) u = (.done (), z) ∧
      v = ((z.letGo d w.held).modifyDomain d fun x => x.countRun r.stats).mark
        (.notice (.runComplete (w.domain d).label r.stats))

variable {call d} {w v : World}

theorem delivers_of_deliverAll (events : List Event) : ∀ {p p' : Progress} {w : World},
    deliverAll call d p events w = (.done p', v) → ∃ legs, legs.map (·.1) = events ∧
      Delivers call d w legs v ∧ p' = p.tell (legs.flatMap (·.2)) := by
  induction events with
  | nil =>
    rintro p p' w ⟨⟩
    exact ⟨[], rfl, .nil _, rfl⟩
  | cons e events ih =>
    intro p p' w h
    have h : (notifyAll call e p (w.liveSubscribers d e.source) >>= fun p =>
        deliverAll call d p events) (w.dealing d e) = (.done p', v) := h
    obtain ⟨q, u, hq, h⟩ := done_of_bind h
    rw [notifyAll_eq] at hq
    obtain ⟨_, z, hz, hp⟩ := done_of_bind hq
    cases hp
    obtain ⟨legs, hl, hd, hp⟩ := ih h
    refine ⟨(e, w.liveSubscribers d e.source) :: legs, congrArg (e :: ·) hl, .cons hz hd, ?_⟩
    rw [hp, List.flatMap_cons, tell_append]

theorem breaks_of_deliverAll (events : List Event) : ∀ {p : Progress} {w : World}
    {o : Outcome Progress} {x : Outcome Empty}, deliverAll call d p events w = (o, v) →
      o.failure? = some x →
        ∃ legs e before s after later, Breaks call d w legs e before s after later x events v := by
  induction events with
  | nil =>
    rintro p w o x ⟨⟩ hx
    cases hx
  | cons e events ih =>
    intro p w o x h hx
    have h : (notifyAll call e p (w.liveSubscribers d e.source) >>= fun p =>
        deliverAll call d p events) (w.dealing d e) = (o, v) := h
    rcases failed_of_bind h hx with ⟨o', h, hx⟩ | ⟨q, u, hq, h⟩
    · rw [notifyAll_eq] at h
      rcases failed_of_bind h hx with ⟨o'', h, hx⟩ | ⟨_, _, _, h⟩
      · obtain ⟨before, s, after, z, o', hs, hb, hn, hx⟩ := failed_of_forM h hx
        exact ⟨[], e, before, s, after, events, rfl, w, z, o', .nil w, hs, hb, hn, hx⟩
      · cases h
        cases hx
    · rw [notifyAll_eq] at hq
      obtain ⟨_, z, hz, hp⟩ := done_of_bind hq
      cases hp
      obtain ⟨legs, e', before, s, after, later, rfl, y, z', o', hd, hc⟩ := ih h hx
      exact ⟨_ :: legs, e', before, s, after, later, rfl, y, z', o', .cons hz hd, hc⟩

/-- Subscribers are let go of however a delivery ends, unless it never does. -/
theorem releasing_apply {α : Type} (m : Engine α) (w : World) :
    releasing d m w = match m w with
      | (.stuck, v) => (.stuck, v)
      | (o, v) => (o, v.letGo d w.held) :=
  ensure_apply (fun _ => rfl) w

/-- How a run comes to an end. -/
theorem completes_of_done {stats : RunStats} (h : runPending call d w = (.done stats, v)) :
    ∃ r : Round, stats = r.stats ∧ Completes call d w r v := by
  rw [runPending_apply] at h
  unfold runTaken at h
  by_cases hne : (w.domain d).queue = []
  · rw [if_pos (by simp [hne])] at h
    cases h
    exact ⟨⟨[], []⟩, rfl, hne.symm, rfl, _, .nil _, rfl⟩
  rw [if_neg (by simpa using hne)] at h
  obtain ⟨stats', y, hy, h⟩ := done_of_bind h
  cases h
  rw [releasing_apply] at hy
  split at hy
  · cases hy
  · next o z _ hm =>
    cases hy
    obtain ⟨p, u, hp, hm⟩ := done_of_bind hm
    obtain ⟨_, z', hz, hm⟩ := done_of_bind hm
    obtain ⟨legs, hl, hd, rfl⟩ := delivers_of_deliverAll _ hp
    cases hm
    rw [tell_start] at hz ⊢
    refine ⟨⟨(w.domain d).queue, legs⟩, rfl, rfl, hl, u, hd, ?_⟩
    rw [if_neg hne]
    exact ⟨z, hz, rfl⟩

/-- How a run fails. -/
theorem course_of_failed {label : String} {events : List Event} {o : Outcome RunStats}
    {x : Outcome Empty} (hx : o.failure? = some x)
    (h : runTaken call d label events w = (o, v)) :
    ∃ z, v = (if x = .stuck then z else z.letGo d w.held) ∧
      ((∃ legs e before s after later,
          Breaks call d w legs e before s after later x events z) ∨
        ∃ r before s after, r.taken = events ∧ Stalls call d w r before s after x z) := by
  unfold runTaken at h
  split at h
  · cases h
    cases hx
  rcases failed_of_bind h hx with ⟨o', h, hx⟩ | ⟨_, _, _, h⟩
  · obtain ⟨o'', z, hm, hv, hx⟩ : ∃ (o'' : Outcome RunStats) (z : World), (do
        let p ← deliverAll call d {} events
        p.woken.forM (execute call)
        return ({ events := events.length, notified := p.notified, executed := p.woken.length } :
          RunStats) : Engine RunStats) w = (o'', z) ∧
          v = (if x = .stuck then z else z.letGo d w.held) ∧ o''.failure? = some x := by
      rw [releasing_apply] at h
      split at h
      · next hm =>
        cases h
        cases hx
        exact ⟨_, _, hm, (if_pos rfl).symm, rfl⟩
      · next o'' _ hs hm =>
        cases h
        refine ⟨_, _, hm, (if_neg fun he => ?_).symm, hx⟩
        subst he
        cases o' with
        | stuck => exact hs rfl
        | _ => cases hx
    refine ⟨z, hv, ?_⟩
    rcases failed_of_bind hm hx with ⟨_, hm, hx⟩ | ⟨p, u, hp, hm⟩
    · exact .inl (breaks_of_deliverAll events hm hx)
    obtain ⟨legs, hl, hd, rfl⟩ := delivers_of_deliverAll events hp
    rw [tell_start] at hm
    rcases failed_of_bind hm hx with ⟨_, hm, hx⟩ | ⟨_, _, _, hm⟩
    · obtain ⟨before, s, after, y, o', hs, hb, he, hx⟩ := failed_of_forM hm hx
      exact .inr ⟨⟨events, legs⟩, before, s, after, rfl, hl, hs, u, y, o', hd, hb, he, hx⟩
    · cases hm
      cases hx
  · cases h
    cases hx

end Engine

end GuardedStore
