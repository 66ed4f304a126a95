import GuardedStore.Proofs.Rounds.Settled

/-!
Turns.

While somebody whom a run has woken acts, their domain hands out events only in further runs of its
own. As long as runs are not begun within one another, nobody is called by the domain while it is
somebody else's turn, or their own, and the events of a source are handed out in the order in which
they were requested, whatever panics on the way.
-/
namespace GuardedStore

variable {d : Nat} {h : List Happening}

/-- The events of a source that were handed to a subscriber, in order. -/
def heard (x : Subscriber) (source : Source) (legs : List (Event × List Subscriber)) :
    List Event :=
  (legs.filter fun leg => leg.1.source = source ∧ x ∈ leg.2).map (·.1)

theorem heard_sublist (x : Subscriber) (source : Source) (legs : List (Event × List Subscriber)) :
    (heard x source legs).Sublist ((legs.map (·.1)).filter (·.source = source)) := by
  unfold heard
  rw [List.filter_map]
  refine List.Sublist.map _ ?_
  have : (legs.filter fun leg => leg.1.source = source ∧ x ∈ leg.2) =
      (legs.filter fun leg => leg.1.source = source).filter (x ∈ ·.2) := by
    rw [List.filter_filter]
    exact List.filter_congr fun leg _ => by simp [Bool.and_comm]
  rw [this]
  exact List.filter_sublist

/-- What straight rounds hand out is among what they took, in order. -/
theorem handed_sublist_of_straight {rs : List Round} (hs : ∀ r ∈ rs, r.Straight) :
    ((rs.flatMap (·.legs)).map (·.1)).Sublist (rs.map (·.taken)).flatten := by
  induction rs with
  | nil => exact List.nil_sublist _
  | cons r rs ih =>
    rw [List.flatMap_cons, List.map_append, List.map_cons, List.flatten_cons]
    exact (hs r List.mem_cons_self).sublist.append
      (ih fun r hr => hs r (List.mem_cons_of_mem _ hr))

/-- Where all has been in keeping with the docket of a domain from the beginning and its runs were not
begun within one another, events are handed out in the order in which they were requested. -/
theorem World.handed_sublist_requested {w : World} {e : Ending} (h : (docket d True).rel {} e w)
    (hk : (w.domain d).kind = .cooperative) (hu : Unnested d w.history) :
    ((handedBy d w.history).map (·.1)).Sublist ((requestsTo d w.history).map (·.2)) := by
  obtain ⟨newer, hb, ho⟩ := h.2 fun _ => hk
  obtain rfl : newer = w.history := (hb.history.trans (List.append_nil newer)).symm
  obtain ⟨rs, hrs, hs⟩ := ((ho trivial).straight hu rfl).rounds
  obtain rfl : rs = rounds d w.history := (hrs.trans (List.append_nil rs)).symm
  have hq : (takenBy d w.history).flatten <+: (requestsTo d w.history).map (·.2) :=
    ⟨_, hb.queue⟩
  refine List.Sublist.trans ?_ hq.sublist
  rw [handedBy_eq_rounds (ho trivial).opened, takenBy_eq_rounds]
  exact handed_sublist_of_straight fun r hr => hs r (List.mem_reverse.mp hr)

namespace Engine

variable {call : Nat → Engine Unit} {w u v : World} {s : Subscriber}

/-- In a run that was begun in one world it is somebody's turn to act: all events were delivered, and
those who were woken before them have acted. -/
structure Acts (call : Nat → Engine Unit) (d : Nat) (w : World) (s : Subscriber) (u : World) :
    Prop where
  course : ∃ (r : Round) (before after : List Subscriber) (z : World),
    r.taken = (w.domain d).queue ∧ r.Complete ∧ r.woken = before ++ s :: after ∧
      Delivers call d (w.taking d) r.legs z ∧ before.forM (execute call) z = (.done (), u)

/-- Nobody is woken where nothing is taken. -/
theorem taken_ne_nil {r : Round} (hc : r.Complete) {before after : List Subscriber}
    (hs : r.woken = before ++ s :: after) : r.taken ≠ [] := by
  intro he
  rw [Round.Complete, he, List.map_eq_nil_iff] at hc
  simp [Round.woken, Round.notified, hc] at hs

theorem Acts.queue_ne_nil (h : Acts call d w s u) : (w.domain d).queue ≠ [] := by
  obtain ⟨r, before, after, -, hr, hc, hs, -⟩ := h.course
  exact hr ▸ taken_ne_nil hc hs

/-- In a run that comes to its end everybody whom it woke has had their turn, and their turns were all
that came between the deliveries and the end. -/
theorem Completes.acts {r : Round} (hr : Completes call d w r v) {before after : List Subscriber}
    (hs : r.woken = before ++ s :: after) :
    ∃ u z y, Acts call d w s u ∧ execute call s u = (.done (), z) ∧
      after.forM (execute call) z = (.done (), y) ∧ v.history =
        .notice (.runComplete (w.domain d).label r.stats) :: .released d w.held :: y.history := by
  obtain ⟨u, hu, hv⟩ := hr.course
  rw [if_neg (taken_ne_nil hr.complete hs)] at hv
  obtain ⟨y, hy, rfl⟩ := hv
  rw [hs] at hy
  obtain ⟨x, z, hx, hz, hy⟩ := done_of_forM hy
  exact ⟨x, z, y, ⟨r, before, after, u, hr.taken, hr.complete, hs, hu, hx⟩, hz, hy, rfl⟩

variable (hc : ∀ r, (call r).Keeps (docket d True)) (hw : w.Sound) (hd : d < w.domains.next)
  (hk : (w.domain d).kind = .cooperative)

include hc hw hd hk

/-- While somebody acts whom a run has woken, the domain calls nobody without a further run, and there
is no further run unless runs are begun within one another. -/
theorem Acts.alone (h : Acts call d w s u) {o : Outcome Unit} (he : execute call s u = (o, v)) :
    ∃ newer, v.history = newer ++ u.history ∧ (takenBy d newer = [] → handedBy d newer = []) ∧
      (Unnested d v.history → takenBy d newer = []) := by
  obtain ⟨r, before, after, z, -, -, -, hz, hb⟩ := h.course
  have hi : (docket d False).inv w := ⟨hw, fun h => absurd hd (Nat.not_lt.mpr h)⟩
  have hkt := (kind_taking w d d).trans hk
  obtain ⟨hu, n, hn⟩ := dealt_of_course (w := w.taking d) hc hd hkt (inv_taking hd hi) hz hb
  have hv : (docket d True).Holds u o.ending v :=
    (execute_keeps (docket_handing d True).toSignalling hc (fun _ _ => trivial) u).holds hu.1 he
  obtain ⟨newer, hbooked, ho⟩ := hv.2.2 fun _ => (hv.2.1.kind (Nat.lt_of_lt_of_le hd
    hu.2.1.domains)).trans ((hu.2.1.kind hd).trans hkt)
  refine ⟨newer, hbooked.history, fun ht => ((ho trivial).opened _ (List.suffix_refl _) ht).1,
    fun hun => ?_⟩
  have hall := hn.trans ((ho trivial).dealt hbooked)
  have ht := hall.takenBy_eq_nil hun (running_taking h.queue_ne_nil)
  rw [takenBy_append, List.append_eq_nil_iff] at ht
  exact ht.2

end Engine

namespace Scenario

theorem callUntil_docket (halt : World → Bool) (d depth r : Nat) :
    (callUntil halt depth r).Keeps (docket d True) :=
  callUntil_keeps (fun _ hc => docket_admits hc) halt depth r

/-- While somebody acts whom a run has woken, the domain calls nobody except in a further run; and as
long as no run is begun within another one of the domain, there is none, and at every moment the
events of a source that were handed to a subscriber are among those that were requested, in the same
order. -/
theorem turns_of_unnested (halt : World → Bool) (depth d : Nat) :
    (∀ (w u v : World) s o, w.Sound → d < w.domains.next → (w.domain d).kind = .cooperative →
      Engine.Acts (callUntil halt depth) d w s u →
      Engine.execute (callUntil halt depth) s u = (o, v) →
        ∃ newer, v.history = newer ++ u.history ∧
          (takenBy d newer = [] → handedBy d newer = []) ∧
          (Unnested d v.history → takenBy d newer = [])) ∧
    ∀ steps, ((reached halt depth {} steps).domain d).kind = .cooperative →
      Unnested d (reached halt depth {} steps).history → ∀ x source,
        (heard x source (handedBy d (reached halt depth {} steps).history)).Sublist
          (((requestsTo d (reached halt depth {} steps).history).map (·.2)).filter
            (·.source = source)) := by
  refine ⟨fun w u v s o hw hd hk ha he => ha.alone (callUntil_docket halt d depth) hw hd hk he,
    fun steps hk hu x source => ?_⟩
  have h₀ : (docket d True).inv {} := ⟨World.sound_empty, fun _ => rfl⟩
  obtain ⟨e, -, he⟩ := reached_holds (fun _ hc => docket_admits hc)
    (fun _ => sound_unwinding_docket) halt depth steps h₀
  exact (heard_sublist x source _).trans ((World.handed_sublist_requested he hk hu).filter _)

/-- Whoever is woken writes an item they hear of themselves and raises a trigger, when they act for
the first time; the run that comes later tells them. -/
def writingDependent : List Step :=
  [.domain "d" "d" .cooperative,
    .store "s" (.builder [.affinity (some "d")]),
    .create "s" "k" "n" .int64 (.int 0) none .none,
    .dependent "p" none (some (Script.window 0 (some 1)
      [.write "k" none (.int 1), .trigger (some "d") (.key "k") 7])),
    .subscribe (some "d") (.key "k") "p"]

theorem writingDependent_turns :
    (∃ u v newer, Engine.Acts (callWithin maxDepth) 0
        (reached (fun _ => false) maxDepth {} writingDependent) (.dependent 0) u ∧
      Engine.execute (callWithin maxDepth) (.dependent 0) u = (.done (), v) ∧
      v.history = newer ++ u.history ∧ takenBy 0 newer = [] ∧ handedBy 0 newer = []) ∧
    let w := reached (fun _ => false) maxDepth {}
      (writingDependent ++ [.runPending "d", .runPending "d"])
    (heard (.dependent 0) (w.item 0).source (handedBy 0 w.history)).Sublist
        (((requestsTo 0 w.history).map (·.2)).filter (·.source = (w.item 0).source)) ∧
      heard (.dependent 0) (w.item 0).source (handedBy 0 w.history) =
        [⟨(w.item 0).source, 1⟩, ⟨(w.item 0).source, 2⟩, ⟨(w.item 0).source, 7⟩] := by
  obtain ⟨ha, hb⟩ := turns_of_unnested (fun _ => false) maxDepth 0
  constructor
  · have hw := (reached_inStep (fun _ => false) maxDepth writingDependent).sound
    have hd := Engine.eq_of_outcome (m := Engine.runPending (callWithin maxDepth) 0)
      (w := reached (fun _ => false) maxDepth {} writingDependent) (o := .done ⟨1, 2, 2⟩)
      (by decide +kernel)
    obtain ⟨r, -, hr⟩ := Engine.serves_of_completes (callWithin_docket 0 maxDepth) hw
      (by decide +kernel) (by decide +kernel) hd (by decide +kernel)
    have hwoken : r.woken = [.store 0] ++ .dependent 0 :: [] := by
      have := congrArg (fun rs => rs.head?.map Round.woken) hr.round
      exact Option.some.inj (this.symm.trans (by decide +kernel))
    obtain ⟨u, v, y, hu, hv, hy, hh⟩ := hr.toCompletes.acts hwoken
    cases hy
    rw [callUntil_never] at ha
    obtain ⟨newer, hn, hq, ht⟩ := ha _ u v _ _ hw (by decide +kernel) (by decide +kernel) hu hv
    have hun : Undisturbed 0 v.history :=
      Undisturbed.of_suffix (by decide +kernel) ⟨[_, _], hh.symm⟩
    exact ⟨u, v, newer, hu, hv, hn, ht hun.unnested, hq (ht hun.unnested)⟩
  · have hun : Undisturbed 0 (reached (fun _ => false) maxDepth {}
        (writingDependent ++ [.runPending "d", .runPending "d"])).history := by decide +kernel
    exact ⟨hb _ (by decide +kernel) hun.unnested _ _, by decide +kernel⟩

/-- Whoever acts raises a trigger they hear of themselves and runs their domain, once. -/
def runningDependent : List Step :=
  [.domain "d" "d" .cooperative,
    .store "s" .standard,
    .dependent "p" none (some (Script.window 0 (some 1)
      [.trigger (some "d") (.store "s") 2, .runPending "d"])),
    .subscribe (some "d") (.store "s") "p",
    .trigger (some "d") (.store "s") 1]

/-- While it is the turn of a dependent that runs its domain, the domain hands it an event and has it
act again. -/
theorem runningDependent_reentered :
    let w := reached (fun _ => false) maxDepth {} runningDependent
    let call := callWithin maxDepth
    let e : Event := ⟨.store (.drawn 0), 1⟩
    let u := (Engine.notify call (.dependent 0) e ((w.taking 0).dealing 0 e)).2
    Engine.Acts call 0 w (.dependent 0) u ∧
      ∃ newer, (Engine.execute call (.dependent 0) u).2.history = newer ++ u.history ∧
        handedBy 0 newer = [(⟨.store (.drawn 0), 2⟩, [.dependent 0])] ∧
        newer.count (.executed "p") = 2 := by
  intro w call e u
  constructor
  · refine ⟨⟨[e], [(e, [.dependent 0])]⟩, [], [], u, by decide +kernel, rfl, rfl, ?_, rfl⟩
    have h : (w.taking 0).liveSubscribers 0 e.source = [.dependent 0] := by decide +kernel
    rw [← h]
    refine .cons ?_ (.nil u)
    have hu : Engine.notify call (.dependent 0) e ((w.taking 0).dealing 0 e) = (.done (), u) :=
      Engine.eq_of_outcome (by decide +kernel)
    rw [h]
    exact Engine.bind_of_done hu
  · let older := u.history
    let all := (Engine.execute call (.dependent 0) u).2.history
    have hh : all = all.take (all.length - older.length) ++ older := by decide +kernel
    exact ⟨_, hh, by decide +kernel, by decide +kernel⟩

end Scenario

end GuardedStore
