import GuardedStore.Proofs.Fanout.Admitted
import GuardedStore.Proofs.Rounds.Course

/-!
Those who follow the sources of a store that moves from domain to domain.

As long as a store stays in a domain its moves elsewhere are no concern of those who follow its
sources there. When it leaves the domain they are all forgotten, and no later move brings them
back.
-/
namespace GuardedStore

namespace World

variable {w : World} {s : Nat} {affinity : Option Nat}

theorem sources_rebinding (s : Nat) (affinity : Option Nat) (w : World) :
    (w.rebinding s affinity).sources s = w.sources s := by
  have hi (i : Nat) : ((w.rebinding s affinity).item i).source = (w.item i).source := by
    rw [item_rebinding]
    split <;> rfl
  rw [sources, sources, store_rebinding]
  simp only [hi]
  rfl

theorem departures_rebinding (hw : w.Told) (hs : s < w.stores.next) (affinity : Option Nat)
    (d : Nat) : departures s d (w.rebinding s affinity).history =
      departures s d w.history + if (w.store s).affinity = some d then 1 else 0 := by
  obtain ⟨n, hh⟩ := history_rebinding_eq s affinity w
  have hb : binding s (.notice n :: w.history) = some (w.store s).affinity := hw s hs
  rw [hh]
  change departures s d w.history + _ + _ = _
  simp [Happening.departs, hb]

/-- What becomes of a store and of those who follow its sources when it is bound again and again. -/
structure Moved (s : Nat) (w v : World) : Prop where
  inv : fanout.inv v
  names : v.names = w.names
  sources : v.sources s = w.sources s
  departures : ∀ d, departures s d w.history ≤ departures s d v.history
  followers : ∀ d, ∀ source ∈ w.sources s, (v.domain d).followers source =
    if GuardedStore.departures s d v.history = GuardedStore.departures s d w.history then
      (w.domain d).followers source
    else []

theorem Moved.refl (hw : fanout.inv w) (s : Nat) : w.Moved s w where
  inv := hw
  names := rfl
  sources := rfl
  departures _ := Nat.le_refl _
  followers _ _ _ := (if_pos rfl).symm

theorem Moved.trans {u v : World} (h : u.Moved s v) (h' : v.Moved s w) : u.Moved s w where
  inv := h'.inv
  names := h'.names.trans h.names
  sources := h'.sources.trans h.sources
  departures d := Nat.le_trans (h.departures d) (h'.departures d)
  followers d source hm := by
    have hle := h.departures d
    have hle' := h'.departures d
    rw [h'.followers d source (h.sources ▸ hm), h.followers d source hm]
    by_cases hv : GuardedStore.departures s d w.history = GuardedStore.departures s d v.history
    · rw [if_pos hv, hv]
    · rw [if_neg hv, if_neg (by omega)]

theorem moved_rebinding (hs : s < w.stores.next) (hk : w.Keeping s (w.rebinding s affinity))
    (hw : fanout.inv w) : w.Moved s (w.rebinding s affinity) where
  inv := (fanout_rebinding hs hk hw).1
  names := hk.names
  sources := sources_rebinding s affinity w
  departures d := by
    rw [departures_rebinding hw.2 hs]
    exact Nat.le_add_right _ _
  followers d source hm := by
    rw [departures_rebinding hw.2 hs, followers_rebinding hs hw.1]
    by_cases ha : (w.store s).affinity = some d <;> simp [ha, hm]

end World

open World

namespace Performing

variable {w : World}

/-- A step that binds a store ends in a complaint or comes down to binding it. -/
theorem setAffinity_run (step name : String) (domain : Option String) (w : World) :
    (∃ e, (setAffinity step name domain).run w = (.done (.error e), w)) ∨
      ∃ s affinity, w.names.stores.find? name = some s ∧ (w.names.Valid w → w.Offers affinity) ∧
        (setAffinity step name domain).run w =
          (Engine.setAffinity s affinity >>= fun _ => pure (.ok .ok)) w := by
  unfold setAffinity
  obtain ⟨_ | _, h₁, -⟩ := looks_refuseWhen step (fun w => 0 < w.triggerDepth) w
  · exact .inl ⟨_, run_bind_error h₁⟩
  rw [run_bind_ok h₁]
  obtain ⟨_ | s, h₂, hs⟩ := looks_named .store Names.stores name w
  · exact .inl ⟨_, run_bind_error h₂⟩
  rw [storeNamed, run_bind_ok h₂]
  obtain ⟨_ | affinity, h₃, ha⟩ := looks_affinityNamed domain w
  · exact .inl ⟨_, run_bind_error h₃⟩
  rw [run_bind_ok h₃]
  obtain ⟨_ | _, h₄, -⟩ := looks_checkShareable s w
  · exact .inl ⟨_, run_bind_error h₄⟩
  rw [run_bind_ok h₄]
  refine .inr ⟨s, affinity, hs s rfl, ha affinity rfl, ?_⟩
  rw [run_lift_bind]
  rfl

/-- So unless it never ends, it leaves the world as it is or binds the store somewhere else. -/
theorem answer_setAffinity (call : Nat → Engine Unit) (name : String) (domain : Option String)
    (hw : w.Sound) :
    (∃ o, answer call (.setAffinity name domain) w = (o, w) ∧ o.ending ≠ .panicked) ∨
      ∃ s affinity, w.names.stores.find? name = some s ∧
        w.Keeping s (w.rebinding s affinity) ∧
        answer call (.setAffinity name domain) w = (.done .ok, w.rebinding s affinity) := by
  have hp : perform call (.setAffinity name domain) =
      setAffinity "set_affinity" name domain := rfl
  rw [answer, hp, Engine.bind_apply]
  rcases setAffinity_run "set_affinity" name domain w with ⟨e, h⟩ | ⟨s, affinity, hs, ha, h⟩ <;>
    rw [h]
  · exact .inl ⟨_, rfl, fun h => by cases h⟩
  rw [Engine.bind_apply, Engine.setAffinity_apply]
  by_cases hr : 0 < (w.store s).affinityReaders
  · rw [if_pos hr]
    exact .inl ⟨_, rfl, fun h => by cases h⟩
  rw [if_neg hr]
  by_cases hne : (w.store s).affinity = affinity
  · rw [if_pos hne]
    exact .inl ⟨_, rfl, fun h => by cases h⟩
  rw [if_neg hne]
  exact .inr ⟨s, affinity, hs, Engine.keeping_rebinding hw (hw.names.stores hs) (ha hw.names)
    (by omega) hne, rfl⟩

end Performing

namespace Engine

variable {call : Nat → Engine Unit} {d : Nat} {w v : World}
  {legs : List (Event × List Subscriber)}

/-- What deliveries do is kept as far as they have come. -/
theorem holds_of_delivers {L : Law} {D : Nat → Prop} (c : L.Handing D) (hd : D d)
    (hc : ∀ r, (call r).Keeps L) (h : Delivers call d w legs v) (hw : L.inv w) :
    L.Holds w .done v := by
  induction h with
  | nil w => exact ⟨hw, L.refl hw⟩
  | @cons w u _ e legs hu _ ih =>
    have h₁ := c.handing e hd hw
    have h₂ := h₁.done_trans hw (c.takeHold (w.liveSubscribers d e.source) h₁.1)
    have hn : ((w.liveSubscribers d e.source).forM (notify call · e)).Keeps L :=
      keeps_forM fun x _ => notify_keeps c.toSignalling hc (fun _ _ => trivial) e
    have h₃ := h₂.done_trans hw ((hn (w.dealing d e)).holds h₂.1 hu)
    exact h₃.done_trans hw (ih h₃.1)

/-- The turn of an event in a course of deliveries. -/
theorem turn_of_delivers {before after : List (Event × List Subscriber)} {e : Event}
    {subs : List Subscriber} (h : Delivers call d w (before ++ (e, subs) :: after) v) :
    ∃ u z, Delivers call d w before u ∧ subs = u.liveSubscribers d e.source ∧
      subs.forM (notify call · e) (u.dealing d e) = (.done (), z) := by
  induction before generalizing w with
  | nil =>
    cases h with
    | cons hu _ => exact ⟨w, _, .nil w, rfl, hu⟩
  | cons leg before ih =>
    cases h with
    | cons hu h =>
      obtain ⟨u, z, hb, hs, hz⟩ := ih h
      exact ⟨u, z, .cons hu hb, hs, hz⟩

end Engine

/-- Of those who are notified of an event the ones who follow its source are the ones who follow it
and can be woken. -/
theorem World.followers_liveSubscribers (u : World) (d : Nat) (source : Source) :
    followers source (u.liveSubscribers d source) =
      ((u.domain d).followers source).filter u.alive := by
  simp only [followers, liveSubscribers, Domain.followers, List.filter_filter, Bool.and_comm]

namespace Scenario

theorem callUntil_fanout (halt : World → Bool) (depth r : Nat) :
    (callUntil halt depth r).Keeps fanout :=
  callUntil_keeps (fun _ hc => fanout_admits hc) halt depth r

theorem fanout_unwinding (w : World) (hw : fanout.inv w) :
    fanout.Holds w .done { w with unwinding := false } :=
  (unstirred_of_same (sound_unwinding false) { World.Grows.refl w with } rfl rfl
    ⟨[], by simp, rfl⟩ : w.Unstirred { w with unwinding := false }).holds hw

theorem reached_follows (halt : World → Bool) (depth : Nat) (steps : List Step) {w : World}
    (hw : fanout.inv w) : fanout.inv (reached halt depth w steps) ∧
      w.Grows (reached halt depth w steps) ∧ w.Follows (reached halt depth w steps) := by
  obtain ⟨e, h⟩ := reached_holds (fun _ hc => fanout_admits hc) fanout_unwinding halt depth steps hw
  exact h

theorem fanout_empty : fanout.inv {} :=
  ⟨sound_empty, nofun⟩

/-- However often a store that goes by a name is bound. -/
theorem settled_moves {depth : Nat} {name : String} {s : Nat} (moves : List (Option String)) :
    ∀ {w v : World}, fanout.inv w → w.names.stores.find? name = some s →
      settled depth w (moves.map (Step.setAffinity name)) = some v → w.Moved s v := by
  induction moves with
  | nil =>
    rintro w v hw - ⟨⟩
    exact .refl hw s
  | cons m moves ih =>
    intro w v hw hs hv
    rw [List.map_cons, settled_cons] at hv
    rcases Performing.answer_setAffinity (callWithin depth) name m hw.1 with
      ⟨o, ho, hne⟩ | ⟨t, affinity, ht, hk, ho⟩ <;> rw [ho] at hv
    · cases o with
      | done a => exact ih hw hs hv
      | panicked text => exact absurd rfl hne
      | stuck => cases hv
    · obtain rfl := Option.some.inj (ht.symm.trans hs)
      have hm := moved_rebinding (hw.1.names.stores ht) hk hw
      exact hm.trans (ih hm.inv (by rw [hm.names, ht]) hv)

/-- However often a store is bound, whoever follows a source of its own or of one of its items in a
domain follows it afterwards if the store has not left the domain on the way, and else nobody does.
From then on nobody follows the source there who did not, until somebody is subscribed, and all who
did still do, until something makes a difference to it; and a run of the domain that comes to its
end notifies them of each event of the source that was queued, in order of subscription and as often
as they are subscribed, if they can be woken when its turn comes. -/
theorem followers_of_moves {depth : Nat} {steps : List Step} {moves : List (Option String)}
    {w v : World} {name : String} {s : Nat} (hw : settled depth {} steps = some w)
    (hs : w.names.stores.find? name = some s)
    (hv : settled depth w (moves.map (Step.setAffinity name)) = some v) :
    ∀ d < w.domains.next, ∀ source ∈ w.sources s,
      ((v.domain d).followers source =
        if departures s d v.history = departures s d w.history then (w.domain d).followers source
        else []) ∧
      (∀ halt later, let u := reached halt depth v later
        (enlistments d source u.history = enlistments d source v.history →
          ((u.domain d).followers source).Sublist ((v.domain d).followers source)) ∧
        (stirrings d source u.history = stirrings d source v.history →
          (u.domain d).followers source = (v.domain d).followers source)) ∧
      ∀ later u stats z, settled depth v later = some u →
        Engine.runPending (callWithin depth) d u = (.done stats, z) →
          ∃ r : Round, Engine.Completes (callWithin depth) d u r z ∧
            ∀ before e subs after, r.legs = before ++ (e, subs) :: after → e.source = source →
              ∃ t t', Engine.Delivers (callWithin depth) d (u.taking d) before t ∧
                subs.forM (Engine.notify (callWithin depth) · e) (t.dealing d e) = (.done (), t') ∧
                (enlistments d source t.history = enlistments d source v.history →
                  (followers source subs).Sublist ((v.domain d).followers source)) ∧
                (stirrings d source t.history = stirrings d source v.history →
                  followers source subs = ((v.domain d).followers source).filter t.alive) := by
  intro d hd source hm
  have hw' : fanout.inv w := reached_of_settled hw ▸
    (reached_follows (fun _ => false) depth steps fanout_empty).1
  have hmv := settled_moves moves hw' hs hv
  have hd' : d < v.domains.next := by
    rw [← reached_of_settled hv]
    exact Nat.lt_of_lt_of_le hd
      (reached_follows (fun _ => false) depth _ hw').2.1.domains
  refine ⟨hmv.followers d source hm, fun halt later => ?_, fun later u stats z hu hr => ?_⟩
  · obtain ⟨-, -, hf⟩ := reached_follows halt depth later hmv.inv
    exact ⟨hf.gained hd', hf.kept hd'⟩
  · obtain ⟨hui, hg, hf⟩ := reached_follows (fun _ => false) depth later hmv.inv
    rw [reached_of_settled hu] at hui hg hf
    obtain ⟨r, -, hc⟩ := Engine.completes_of_done hr
    refine ⟨r, hc, fun before e subs after hl he => ?_⟩
    obtain ⟨y, hy, -⟩ := hc.course
    obtain ⟨t, t', hb, hsubs, ht⟩ := Engine.turn_of_delivers (hl ▸ hy)
    have hcall (r : Nat) : (callWithin depth r).Keeps fanout := by
      have := callUntil_fanout (fun _ => false) depth r
      rwa [callUntil_never] at this
    -- the law is kept from the end of the moves to the turn of the event
    have htaking : fanout.Holds u .done (u.taking d) :=
      (fanout_delivering.table Domain.sameTable_emptyQueue hui).done_trans hui
        (fanout_delivering.taken d _ (fanout_delivering.table Domain.sameTable_emptyQueue hui).1)
    have hturn := htaking.done_trans hui
      (Engine.holds_of_delivers fanout_delivering.toHanding trivial hcall hb htaking.1)
    have hf : v.Follows t := hf.trans hg hturn.2.1 hturn.2.2
    subst he
    have hlive := t.followers_liveSubscribers d e.source
    refine ⟨t, t', hb, ht, fun hn => ?_, fun hn => ?_⟩
    · rw [hsubs, hlive]
      exact List.filter_sublist.trans (hf.gained hd' hn)
    · rw [hsubs, hlive, hf.kept hd' hn]

/-- Two dependents follow an item, one where its store is bound and one elsewhere. -/
def followed : List Step :=
  [.domain "a" "a" .cooperative,
    .domain "b" "b" .cooperative,
    .domain "c" "c" .cooperative,
    .store "s" (.builder [.affinity (some "a")]),
    .create "s" "k" "n" .int64 (.int 0) none .none,
    .dependent "p" none none,
    .dependent "q" none none,
    .subscribe (some "a") (.key "k") "p",
    .subscribe (some "b") (.key "k") "q"]

/-- The store goes and comes back: the one who followed the item there is forgotten, and the other
one is notified of whatever is requested in the item's name. -/
theorem followed_moved :
    let w := reached (fun _ => false) maxDepth {} followed
    let v := reached (fun _ => false) maxDepth w
      ([some "c", some "a"].map (Step.setAffinity "s"))
    let u := reached (fun _ => false) maxDepth v [.trigger (some "b") (.key "k") 7]
    let source := (w.item 0).source
    ((w.domain 0).followers source = [.dependent 0] ∧ (v.domain 0).followers source = []) ∧
    ((w.domain 1).followers source = [.dependent 1] ∧
      (v.domain 1).followers source = (w.domain 1).followers source) ∧
    ∃ r z, Engine.Completes (callWithin maxDepth) 1 u r z ∧
      r.legs.map (·.1) = [⟨source, 7⟩] ∧ (u.domain 1).followers source = [.dependent 1] := by
  intro w v u source
  have hw : settled maxDepth {} followed = some w := settled_eq_some (by decide +kernel)
  have hv : settled maxDepth w ([some "c", some "a"].map (Step.setAffinity "s")) = some v :=
    settled_eq_some (by decide +kernel)
  have hu : settled maxDepth v [.trigger (some "b") (.key "k") 7] = some u :=
    settled_eq_some (by decide +kernel)
  have h := followers_of_moves (s := 0) hw (by decide +kernel) hv
  obtain ⟨ha, -, -⟩ := h 0 (by decide +kernel) source (by decide +kernel)
  obtain ⟨hb, hl, hr⟩ := h 1 (by decide +kernel) source (by decide +kernel)
  have hstay : (v.domain 1).followers source = (w.domain 1).followers source :=
    hb.trans (if_pos (by decide +kernel))
  have hd := Engine.eq_of_outcome (m := Engine.runPending (callWithin maxDepth) 1) (w := u)
    (o := .done ⟨1, 1, 1⟩) (by decide +kernel)
  obtain ⟨r, hc, -⟩ := hr _ u _ _ hu hd
  refine ⟨⟨by decide +kernel, ha.trans (if_neg (by decide +kernel))⟩, ⟨by decide +kernel, hstay⟩,
    r, _, hc, ?_, ?_⟩
  · have hq : (u.domain 1).queue = [⟨source, 7⟩] := by decide +kernel
    have hcomplete : r.legs.map (·.1) = r.taken := hc.complete
    rw [hcomplete, hc.taken, hq]
  · have hsame := (hl (fun _ => false) [.trigger (some "b") (.key "k") 7]).2 (by decide +kernel)
    have hwf : (w.domain 1).followers source = [.dependent 1] := by decide +kernel
    exact hsame.trans (hstay.trans hwf)

/-- The one who followed the item where its store was bound is alive when the store is back there
and the item is written, and hears nothing of it. -/
theorem followed_forgotten :
    let w := reached (fun _ => false) maxDepth {} followed
    let v := reached (fun _ => false) maxDepth w
      [.setAffinity "s" (some "c"), .setAffinity "s" (some "a"), .write "k" none (.int 1),
        .runPending "a", .runPending "b", .runPending "c"]
    let e : Event := ⟨(w.item 0).source, 2⟩
    ((w.store 0).affinity = some 0 ∧ e.source ∈ w.sources 0 ∧
      .dependent 0 ∈ (w.domain 0).subscribers e.source) ∧
    ((v.store 0).affinity = some 0 ∧ e.source ∈ v.sources 0 ∧ v.alive (.dependent 0) ∧
      .requested (.item 0) (some 0) e ∈ v.history ∧ (v.domain 0).queue = []) ∧
    ∀ x, .notified x e ∉ v.history := by
  intro w v e
  refine ⟨by decide +kernel, by decide +kernel, fun x hx => ?_⟩
  have hnone : ∀ y ∈ v.history, (match y with
      | .notified _ e' => e' = e
      | _ => false) = false := by decide +kernel
  simpa using hnone _ hx

end Scenario

end GuardedStore
