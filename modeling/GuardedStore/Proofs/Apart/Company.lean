import GuardedStore.Proofs.Apart.Steps
import GuardedStore.Proofs.Run.Signalling

/-!
A world in which two sides act, next to one in which only the first does.

What the first side does happens in both worlds, and what the second does in the one only. Neither
touches what the other holds on to, so the worlds stay alike on the first side. A run of a domain
delivers the events of both sides in the one world, in whatever order they came, and in the other
world those of the first side in the same order.
-/
namespace GuardedStore

open Engine

variable {a b : Side} {ρ β : Twins} {w' w v' v : World}

/-- The worlds are alike on the first side, and the second side holds on to nothing that is the
first one's. Whatever is queued is of one side or the other. The first side is shown nothing of the
second, as in the one world there is nothing to show. -/
structure World.Company (a b : Side) (ρ β : Twins) (w' w : World) : Prop where
  mine : w'.Alike a true ρ w
  theirs : w.Alike b false β w
  items : ∀ {i j}, ρ.items i j → ∀ k, ¬ β.items j k ∧ ¬ β.items k j
  aspects : ∀ {i j}, ρ.aspects i j → ∀ k, ¬ β.aspects j k ∧ ¬ β.aspects k j
  routines : ∀ {i j}, ρ.routines i j → ∀ k, ¬ β.routines j k ∧ ¬ β.routines k j
  secluded : ∀ x, a.foreign x = false
  queued : ∀ {d e}, e ∈ (w.domain d).queue → a.fires e.source ∨ b.fires e.source
  audible : w.muted = false

/-- What lies at addresses that are new is apart from what lies at old ones. -/
theorem Renews.apart_left {x y z : Nat → Nat → Prop} {n m : Nat} (hz : Links z m m)
    (h : ∀ {i j}, x i j → ∀ k, ¬ z j k ∧ ¬ z k j) (hr : Renews x y n m) {i j : Nat} (hy : y i j)
    (k : Nat) : ¬ z j k ∧ ¬ z k j := by
  rcases hr i j hy with hx | ⟨-, hle⟩
  · exact h hx k
  · exact ⟨fun hz' => Nat.not_lt.mpr hle (hz.lt hz').1, fun hz' => Nat.not_lt.mpr hle (hz.lt hz').2⟩

theorem Renews.apart_right {x y z : Nat → Nat → Prop} {n m : Nat} (hx : Links x n m)
    (h : ∀ {i j}, x i j → ∀ k, ¬ z j k ∧ ¬ z k j) (hr : Renews z y m m) {i j : Nat} (hij : x i j)
    (k : Nat) : ¬ y j k ∧ ¬ y k j := by
  constructor
  · intro hy
    rcases hr j k hy with hz | ⟨hle, -⟩
    · exact (h hij k).1 hz
    · exact Nat.not_lt.mpr hle (hx.lt hij).2
  · intro hy
    rcases hr k j hy with hz | ⟨-, hle⟩
    · exact (h hij k).2 hz
    · exact Nat.not_lt.mpr hle (hx.lt hij).2

namespace World.Company

variable (h : w'.Company a b ρ β w) {α γ : Type} {m' : Engine α} {m : Engine γ}

include h

theorem lefts_aside {v : World} (hs : w.Confined a (ρ.aside w) v) : w.Confined a β.lefts v :=
  hs.anti
    (fun ⟨k, hk⟩ => ⟨(h.theirs.itemLinks.lt hk).1, fun _ hi => (h.items hi k).1 hk⟩)
    (fun ⟨k, hk⟩ => ⟨(h.theirs.aspectLinks.lt hk).1, fun _ hi => (h.aspects hi k).1 hk⟩)
    (fun ⟨k, hk⟩ => ⟨(h.theirs.routineLinks.lt hk).1, fun _ hi => (h.routines hi k).1 hk⟩)

theorem rights_aside {v : World} (hs : w.Confined a (ρ.aside w) v) : w.Confined a β.rights v :=
  hs.anti
    (fun ⟨k, hk⟩ => ⟨(h.theirs.itemLinks.lt hk).2, fun _ hi => (h.items hi k).2 hk⟩)
    (fun ⟨k, hk⟩ => ⟨(h.theirs.aspectLinks.lt hk).2, fun _ hi => (h.aspects hi k).2 hk⟩)
    (fun ⟨k, hk⟩ => ⟨(h.theirs.routineLinks.lt hk).2, fun _ hi => (h.routines hi k).2 hk⟩)

theorem mine_aside {v : World} (hs : w.Confined b (β.aside w) v) : w.Confined b ρ.rights v :=
  hs.anti
    (fun ⟨_, hi⟩ => ⟨(h.mine.itemLinks.lt hi).2, fun k hk => (h.items hi k).2 hk⟩)
    (fun ⟨_, hi⟩ => ⟨(h.mine.aspectLinks.lt hi).2, fun k hk => (h.aspects hi k).2 hk⟩)
    (fun ⟨_, hi⟩ => ⟨(h.mine.routineLinks.lt hi).2, fun k hk => (h.routines hi k).2 hk⟩)

theorem still_audible {c : Side} {p : Places} (hs : w.Confined c p v) : v.muted = false := by
  by_contra hv
  have hw := hs.muted (by simpa using hv)
  rw [h.audible] at hw
  cases hw

/-- What the first side does is done in both worlds. -/
theorem act (apart : a.Apart b) {Q : Twins → α → γ → Prop} (hm : Tracks a true ρ m' m Q) {y : γ}
    (hr : m w = (.done y, v)) :
    ∃ ρ' x v', m' w' = (.done x, v') ∧ v'.Company a b ρ' β v ∧ ρ ≤ ρ' ∧ Q ρ' x y := by
  obtain ⟨ρ', x, v', hx, hv, hQ⟩ := hm.at h.mine y v hr
  refine ⟨ρ', x, v', hx, ?_, hv.twins, hQ⟩
  exact {
    mine := hv.alike
    theirs := h.theirs.spared apart (h.lefts_aside hv.right) (h.rights_aside hv.right) h.audible
      (fun _ _ => rfl) nofun
    items := hv.items.apart_left h.theirs.itemLinks h.items
    aspects := hv.aspects.apart_left h.theirs.aspectLinks h.aspects
    routines := hv.routines.apart_left h.theirs.routineLinks h.routines
    secluded := h.secluded
    queued := fun {d e} he => by
      obtain ⟨events, hev, hq⟩ := (hv.right.domains d).queue
      rw [hq, List.mem_append] at he
      exact he.elim h.queued fun he => .inl (hev e he)
    audible := h.still_audible hv.right }

/-- What the second side does makes no difference to the first. -/
theorem stand_by (apart : a.Apart b) {m : Engine α} {Q : Twins → α → α → Prop}
    (hm : Tracks b false β m m Q) {y : α} (hr : m w = (.done y, v)) :
    ∃ β', w'.Company a b ρ β' v ∧ Q β' y y ∧ w.Confined b (β.aside w) v := by
  obtain ⟨β', x, z, hx, hv, hQ⟩ := hm.at h.theirs y v hr
  cases hr.symm.trans hx
  refine ⟨β', ?_, hQ, hv.right⟩
  exact {
    mine := h.mine.spared apart.symm (.refl b _ w') (h.mine_aside hv.right) h.audible
      (fun x hx => absurd hx (by simp [h.secluded])) fun _ d => by
        rw [h.mine.queues rfl d, (hv.right.domains d).queue_other apart.symm]
    theirs := hv.alike
    items := fun hi => hv.items.apart_right h.mine.itemLinks h.items hi
    aspects := fun hi => hv.aspects.apart_right h.mine.aspectLinks h.aspects hi
    routines := fun hi => hv.routines.apart_right h.mine.routineLinks h.routines hi
    secluded := h.secluded
    queued := fun {d e} he => by
      obtain ⟨events, hev, hq⟩ := (hv.right.domains d).queue
      rw [hq, List.mem_append] at he
      exact he.elim h.queued fun he => .inr (hev e he)
    audible := h.still_audible hv.right }

end World.Company

/-! ### Runs of a domain -/

/-- Whether a subscriber is a store of the side. -/
def Side.serves (c : Side) : Subscriber → Bool
  | .store n => c.stores n
  | .dependent _ => false

theorem Side.exists_of_serves {c : Side} {x : Subscriber} (h : c.serves x) :
    ∃ n, x = .store n ∧ c.stores n := by
  cases x with
  | store n => exact ⟨n, rfl, h⟩
  | dependent d => cases h

theorem Side.Apart.serves (apart : a.Apart b) {x : Subscriber} (h : b.serves x) :
    a.serves x = false := by
  obtain ⟨n, rfl, hn⟩ := Side.exists_of_serves h
  exact apart.stores hn

/-- Only stores of the two sides were woken, and those of the first side as they were without the
second. -/
structure Engine.Progress.Woke (a b : Side) (p' p : Progress) : Prop where
  mine : p'.woken = p.woken.filter a.serves
  known : ∀ x ∈ p.woken, a.serves x ∨ b.serves x

namespace Engine

variable {lone : Bool} {t : Twins} {c : Side}

theorem tracks_notifyAll {P : Progress → Progress → Prop} (event : Event) {xs : List Subscriber}
    (hxs : ∀ x ∈ xs, c.serves x)
    (hP : ∀ x ∈ xs, ∀ p' p, P p' p →
      P { notified := p'.notified + 1,
          woken := if p'.woken.contains x then p'.woken else p'.woken ++ [x] }
        { notified := p.notified + 1,
          woken := if p.woken.contains x then p.woken else p.woken ++ [x] })
    (call : Nat → Engine Unit) {p' p : Progress} (hp : P p' p) :
    Tracks c lone t (notifyAll call event p' xs) (notifyAll call event p xs) fun _ => P := by
  induction xs generalizing p' p with
  | nil => exact tracks_pure fun _ _ => hp
  | cons x xs ih =>
    obtain ⟨n, rfl, hn⟩ := Side.exists_of_serves (hxs _ List.mem_cons_self)
    refine Tracks.seq (tracks_notify n hn event) fun _ _ => ?_
    exact ih (fun x hx => hxs x (List.mem_cons_of_mem _ hx))
      (fun x hx => hP x (List.mem_cons_of_mem _ hx)) (hP _ List.mem_cons_self p' p hp)

/-- One event of a run is handed out. -/
def handOut (call : Nat → Engine Unit) (domain : Nat) (event : Event) (p : Progress) :
    Engine Progress := do
  let subscribers := (← get).liveSubscribers domain event.source
  record (.handed domain event subscribers)
  hold subscribers
  notifyAll call event p subscribers

theorem deliverAll_cons (call : Nat → Engine Unit) (domain : Nat) (p : Progress) (e : Event)
    (events : List Event) : deliverAll call domain p (e :: events) =
      handOut call domain e p >>= fun p => deliverAll call domain p events := by
  unfold handOut
  rw [deliverAll]
  simp only [bind_assoc]

/-- An event of a side is handed to the same stores in both worlds. -/
theorem tracks_handOut {P : Progress → Progress → Prop} (call : Nat → Engine Unit) (d : Nat)
    {event : Event} (hf : c.fires event.source)
    (hP : ∀ x, c.serves x → ∀ p' p, P p' p →
      P { notified := p'.notified + 1,
          woken := if p'.woken.contains x then p'.woken else p'.woken ++ [x] }
        { notified := p.notified + 1,
          woken := if p.woken.contains x then p.woken else p.woken ++ [x] })
    {p' p : Progress} (hp : P p' p) :
    Tracks c lone t (handOut call d event p') (handOut call d event p) fun _ => P := by
  refine tracks_get_bind fun s u' u _ hu => ?_
  have served := hu.served d hf
  have hxs : ∀ x ∈ u.liveSubscribers d event.source, c.serves x := by
    intro x hx
    obtain ⟨n, rfl, hn⟩ := served x hx
    exact hn
  rw [hu.liveSubscribers d hf]
  refine Tracks.seq (tracks_record (fun _ => rfl) fun _ => rfl) fun _ _ => ?_
  refine Tracks.seq (tracks_modify fun _ _ _ _ hz => hz.hold served) fun _ _ => ?_
  exact tracks_notifyAll event hxs (fun x hx => hP x (hxs x hx)) call hp

end Engine

namespace Engine.Progress

variable {p' p : Progress}

theorem Woke.mine_next (h : Woke a b p' p) {x : Subscriber} (hx : a.serves x) (n' n : Nat) :
    Woke a b ⟨n', if p'.woken.contains x then p'.woken else p'.woken ++ [x]⟩
      ⟨n, if p.woken.contains x then p.woken else p.woken ++ [x]⟩ := by
  have hmem : p'.woken.contains x = p.woken.contains x := by
    rw [Bool.eq_iff_iff, List.contains_iff_mem, List.contains_iff_mem, h.mine, List.mem_filter]
    exact and_iff_left hx
  rw [hmem]
  split
  · exact ⟨h.mine, h.known⟩
  · constructor
    · simp [h.mine, List.filter_append, hx]
    · intro y hy
      rcases List.mem_append.mp hy with hy | hy
      · exact h.known y hy
      · exact .inl (List.mem_singleton.mp hy ▸ hx)

theorem Woke.theirs_next (apart : a.Apart b) (h : Woke a b p' p) {x : Subscriber}
    (hx : b.serves x) (n : Nat) :
    Woke a b p' ⟨n, if p.woken.contains x then p.woken else p.woken ++ [x]⟩ := by
  split
  · exact ⟨h.mine, h.known⟩
  · constructor
    · simp [h.mine, List.filter_append, apart.serves hx]
    · intro y hy
      rcases List.mem_append.mp hy with hy | hy
      · exact h.known y hy
      · exact .inr (List.mem_singleton.mp hy ▸ hx)

end Engine.Progress

namespace World.Company

variable (apart : a.Apart b) {call : Nat → Engine Unit}

include apart

/-- Of the events of both sides those of the first are delivered in both worlds. -/
theorem deliverAll {d : Nat} {events : List Event}
    (hev : ∀ e ∈ events, a.fires e.source ∨ b.fires e.source) {p' p q : Progress}
    (hp : p'.Woke a b p) (h : w'.Company a b ρ β w)
    (hr : deliverAll call d p events w = (.done q, v)) :
    ∃ ρ' β' q' v', deliverAll call d p' (events.filter (a.fires ·.source)) w' = (.done q', v') ∧
      v'.Company a b ρ' β' v ∧ q'.Woke a b q := by
  induction events generalizing ρ β w' w p' p with
  | nil =>
    cases hr
    exact ⟨ρ, β, p', w', rfl, h, hp⟩
  | cons e events ih =>
    rw [deliverAll_cons] at hr
    obtain ⟨q, u, hu, hr⟩ := done_of_bind hr
    have hrest := fun e he => hev e (List.mem_cons_of_mem _ he)
    by_cases he : a.fires e.source
    · have hand : Tracks a true ρ (handOut call d e p') (handOut call d e p)
          fun _ => Progress.Woke a b :=
        tracks_handOut call d he (fun x hx p' p hp => hp.mine_next hx _ _) hp
      obtain ⟨ρ', q', u', hu', hc, -, hq⟩ := h.act apart hand hu
      obtain ⟨ρ', β', q', v', hv', hc, hq⟩ := ih hrest hq hc hr
      refine ⟨ρ', β', q', v', ?_, hc, hq⟩
      rw [List.filter_cons_of_pos (p := fun x : Event => a.fires x.source) he, deliverAll_cons,
        bind_of_done hu', hv']
    · have hb : b.fires e.source := (hev e List.mem_cons_self).resolve_left he
      have hand : Tracks b false β (handOut call d e p) (handOut call d e p)
          fun _ _ q => p'.Woke a b q :=
        tracks_handOut (P := fun _ q => p'.Woke a b q) call d hb
          (fun x hx _ p hp => hp.theirs_next apart hx _) hp
      obtain ⟨β', hc, hq, -⟩ := h.stand_by apart hand hu
      obtain ⟨ρ', β', q', v', hv', hc, hq⟩ := ih hrest hq hc hr
      refine ⟨ρ', β', q', v', ?_, hc, hq⟩
      rw [List.filter_cons_of_neg (p := fun x : Event => a.fires x.source) he, hv']

variable (mine : ∀ lone, Follows a lone call) (theirs : ∀ lone, Follows b lone call)

include mine theirs

/-- Of the stores of both sides those of the first execute in both worlds. -/
theorem executeAll {xs : List Subscriber} (hxs : ∀ x ∈ xs, a.serves x ∨ b.serves x)
    (h : w'.Company a b ρ β w) (hr : xs.forM (execute call) w = (.done (), v)) :
    ∃ ρ' β' v', (xs.filter a.serves).forM (execute call) w' = (.done (), v') ∧
      v'.Company a b ρ' β' v := by
  have execute {c : Side} {lone : Bool} {t : Twins} (follows : Follows c lone call) {x : Subscriber}
      (hx : c.serves x) : Tracks c lone t (execute call x) (execute call x) Twins.Any := by
    obtain ⟨n, rfl, hn⟩ := Side.exists_of_serves hx
    exact (tracks_executeStore follows hn).seq fun _ _ => tracks_unit
  induction xs generalizing ρ β w' w with
  | nil =>
    cases hr
    exact ⟨ρ, β, w', rfl, h⟩
  | cons x xs ih =>
    obtain ⟨_, u, hu, hr⟩ := done_of_bind (m := Engine.execute call x) hr
    have hrest := fun x hx => hxs x (List.mem_cons_of_mem _ hx)
    by_cases hx : a.serves x
    · obtain ⟨ρ', _, u', hu', hc, -⟩ := h.act apart (execute (mine true) hx) hu
      obtain ⟨ρ', β', v', hv', hc⟩ := ih hrest hc hr
      refine ⟨ρ', β', v', ?_, hc⟩
      rw [List.filter_cons_of_pos hx]
      exact (bind_of_done hu').trans hv'
    · obtain ⟨β', hc, -⟩ := h.stand_by apart
        (execute (theirs false) ((hxs x List.mem_cons_self).resolve_left hx)) hu
      obtain ⟨ρ', β', v', hv', hc⟩ := ih hrest hc hr
      refine ⟨ρ', β', v', ?_, hc⟩
      rw [List.filter_cons_of_neg hx, hv']

end World.Company

namespace Engine

variable (call : Nat → Engine Unit) (d : Nat)

/-- Events are delivered, and whoever was notified executes. -/
def serve (events : List Event) : Engine RunStats := do
  let p ← deliverAll call d {} events
  p.woken.forM (execute call)
  return { events := events.length, notified := p.notified, executed := p.woken.length }

/-- A run that delivered something is put on record. -/
def closeRun (label : String) (held : List Subscriber) (stats : RunStats) : Engine RunStats := do
  record (.released d held)
  modifyDomain d fun d => d.countRun stats
  notice (.runComplete label stats)
  return stats

variable {call d}

theorem runTaken_of_done {label : String} {events : List Event} (hne : events ≠ [])
    {stats : RunStats} (hr : serve call d events w = (.done stats, v)) :
    runTaken call d label events w = closeRun d label w.held stats { v with held := w.held } := by
  have held : releasing d (serve call d events) w =
      (.done stats, { v with held := w.held, history := .released d w.held :: v.history }) := by
    show Engine.ensure (serve call d events) _ w = _
    unfold Engine.ensure
    rw [hr]
    rfl
  unfold runTaken
  rw [if_neg (by simpa using hne)]
  exact bind_of_done held

theorem serve_of_runTaken {label : String} {events : List Event} (hne : events ≠ [])
    {stats : RunStats} (hr : runTaken call d label events w = (.done stats, v)) :
    ∃ s u, serve call d events w = (.done s, u) := by
  unfold runTaken at hr
  rw [if_neg (by simpa using hne)] at hr
  obtain ⟨s, u, hs, -⟩ := done_of_bind hr
  change Engine.ensure (serve call d events) _ w = _ at hs
  unfold Engine.ensure at hs
  rcases hb : serve call d events w with ⟨x | _ | _, z⟩ <;> rw [hb] at hs
  · exact ⟨x, z, rfl⟩
  · cases hs
  · cases hs

theorem tracks_closeRun {lone : Bool} {t : Twins} {c : Side} (label' label : String)
    (held' held : List Subscriber) (s' s : RunStats) :
    Tracks c lone t (closeRun d label' held' s') (closeRun d label held s) Twins.Any := by
  refine Tracks.seq (tracks_record (fun _ => rfl) fun _ => rfl) fun _ _ => ?_
  refine Tracks.seq (tracks_modify fun r u' u _ hu => ?_) fun _ _ =>
    Tracks.seq tracks_notice fun _ _ => tracks_pure fun _ _ => trivial
  refine hu.modifyDomain d ((hu.domains d).countRun s' s) (fun hl => ?_)
    (Domain.confined_countRun _ s)
  rw [Domain.queue_countRun, Domain.queue_countRun, hu.queues hl]

end Engine

namespace World.Company

theorem taking (h : w'.Company a b ρ β w) (d : Nat) :
    (w'.taking d).Company a b ρ β (w.taking d) where
  mine := by
    have emptied := h.mine.changeDomain d (h.mine.domains d).emptyQueue fun _ => by
      rw [Domain.queue_emptyQueue, Domain.queue_emptyQueue, List.filter_nil]
    exact (emptied.note (fun _ => rfl) fun _ => rfl).alike
  theirs := by
    have emptied := h.theirs.changeDomain d (h.theirs.domains d).emptyQueue nofun
    exact (emptied.note (fun _ => rfl) fun _ => rfl).alike
  items := h.items
  aspects := h.aspects
  routines := h.routines
  secluded := h.secluded
  queued {r e} he := by
    rw [World.domain_taking] at he
    split at he
    · rw [Domain.queue_emptyQueue] at he
      cases he
    · exact h.queued he
  audible := h.audible

/-- Nobody is held any more but who was before. -/
theorem letGo {ρ' β' : Twins} (h : w'.Company a b ρ β w) (hv : v'.Company a b ρ' β' v) :
    World.Company a b ρ' β' { v' with held := w'.held } { v with held := w.held } :=
  { hv with
    mine := { hv.mine with held := h.mine.held }
    theirs := { hv.theirs with held := fun _ => .rfl } }

section Runs

variable (apart : a.Apart b) {call : Nat → Engine Unit} (mine : ∀ lone, Follows a lone call)
  (theirs : ∀ lone, Follows b lone call) (h : w'.Company a b ρ β w) {d : Nat}

include apart mine theirs h

theorem serve {events : List Event} (hev : ∀ e ∈ events, a.fires e.source ∨ b.fires e.source)
    {s : RunStats} (hr : serve call d events w = (.done s, v)) :
    ∃ ρ' β' s' v', serve call d (events.filter (a.fires ·.source)) w' = (.done s', v') ∧
      v'.Company a b ρ' β' v := by
  obtain ⟨q, u, hu, hr⟩ := done_of_bind hr
  obtain ⟨_, z, hz, hr⟩ := done_of_bind (m := q.woken.forM (execute call)) hr
  cases hr
  have none : ({} : Progress).Woke a b {} := ⟨rfl, by simp⟩
  obtain ⟨ρ', β', q', u', hu', hc, hq⟩ := h.deliverAll apart hev none hu
  obtain ⟨ρ', β', v', hv', hc⟩ := hc.executeAll apart mine theirs hq.known hz
  rw [← hq.mine] at hv'
  exact ⟨ρ', β', _, v', (bind_of_done hu').trans (bind_of_done hv'), hc⟩

/-- In the one world a run delivers the events of both sides, in the other those of the first. -/
theorem runTaken {events : List Event} (hev : ∀ e ∈ events, a.fires e.source ∨ b.fires e.source)
    (label' label : String) {s : RunStats} (hr : runTaken call d label events w = (.done s, v)) :
    ∃ ρ' β' s' v', runTaken call d label' (events.filter (a.fires ·.source)) w' = (.done s', v') ∧
      v'.Company a b ρ' β' v := by
  by_cases hne : events = []
  · subst hne
    cases hr
    exact ⟨ρ, β, _, w', rfl, h⟩
  obtain ⟨x, u, hx⟩ := serve_of_runTaken hne hr
  rw [runTaken_of_done hne hx] at hr
  obtain ⟨ρ', β', x', u', hx', hc⟩ := h.serve apart mine theirs hev hx
  have back := h.letGo hc
  by_cases hmine : events.filter (a.fires ·.source) = []
  · -- The first side has no event here, so its run is over before it has begun.
    rw [hmine] at hx' ⊢
    cases hx'
    obtain ⟨β', hc, -⟩ := back.stand_by apart (tracks_closeRun label label _ _ x x) hr
    exact ⟨ρ', β', {}, w', rfl, hc⟩
  · obtain ⟨ρ', x', v', hv', hc, -⟩ :=
      back.act apart (tracks_closeRun label' label w'.held w.held x' x) hr
    exact ⟨ρ', β', x', v', by rw [runTaken_of_done hmine hx', hv'], hc⟩

theorem runPending {s : RunStats} (hr : runPending call d w = (.done s, v)) :
    ∃ ρ' β' s' v', runPending call d w' = (.done s', v') ∧ v'.Company a b ρ' β' v := by
  rw [runPending_apply] at hr
  have hq := h.mine.queues rfl d
  rw [runPending_apply, hq]
  exact (h.taking d).runTaken apart mine theirs (fun _ he => h.queued he) _ _ hr

end Runs

end World.Company

end GuardedStore
