import GuardedStore.Proofs.Ledger.Writes
import GuardedStore.Proofs.Rounds.Admitted

/-!
What the runs of a cooperative domain deliver.

A run that no other run of its domain interrupts delivers what was queued when it began and nothing
else. Over any course of such runs the counters of the domain are the sizes of what was taken and
woken, and the events of an item reach each of its subscribers in the order of the item's writes.
-/
namespace GuardedStore

variable {d : Nat} {h : List Happening}

/-- The sequence numbers of the events of a source that a subscriber was notified of, in order. -/
def seen (x : Subscriber) (source : Source) (legs : List (Event × List Subscriber)) : List Nat :=
  legs.flatMap fun leg =>
    if leg.1.source = source then List.replicate (leg.2.count x) leg.1.sequence else []

/-- Whoever is notified once of each event of a source has seen some of these events, in order. -/
theorem seen_sublist {x : Subscriber} {source : Source} {legs : List (Event × List Subscriber)}
    (hx : ∀ leg ∈ legs, leg.1.source = source → leg.2.count x ≤ 1) :
    (seen x source legs).Sublist
      (((legs.map (·.1)).filter (·.source = source)).map (·.sequence)) := by
  induction legs with
  | nil => exact List.nil_sublist _
  | cons leg legs ih =>
    have ih := ih fun leg hl => hx leg (List.mem_cons_of_mem _ hl)
    rw [seen, List.flatMap_cons, ← seen, List.map_cons, List.filter_cons]
    by_cases hs : leg.1.source = source
    · have hc := hx leg List.mem_cons_self hs
      rw [if_pos hs, if_pos (by simpa using hs), List.map_cons, ← List.singleton_append]
      exact (List.replicate_sublist_replicate _ |>.mpr hc).append ih
    · rw [if_neg hs, if_neg (by simpa using hs)]
      exact ih

theorem takenBy_eq_rounds (d : Nat) (h : List Happening) :
    takenBy d h = (rounds d h).reverse.map (·.taken) := by
  induction h with
  | nil => rfl
  | cons y h ih =>
    have hcons : takenBy d (y :: h) = takenBy d h ++ (y.takenBy? d).toList := by
      rw [takenBy, List.reverse_cons, List.filterMap_append]
      cases hy : y.takenBy? d <;> simp [takenBy, hy]
    rw [hcons, ih]
    cases y with
    | taken r q =>
      by_cases hr : r = d <;> simp [rounds, Happening.takenBy?, hr]
    | handed r e subscribers =>
      by_cases hr : r = d
      · cases hh : rounds d h <;> simp [rounds, Happening.takenBy?, hr, hh, Round.hand]
      · simp [rounds, Happening.takenBy?, hr]
    | _ => simp [rounds, Happening.takenBy?]

/-- What a domain hands out belongs to its rounds. -/
theorem handedBy_eq_rounds (ho : Opened d h) :
    handedBy d h = (rounds d h).reverse.flatMap (·.legs) := by
  induction h with
  | nil => rfl
  | cons y h ih =>
    have ih := ih fun m hm => ho m (List.suffix_cons_iff.mpr (.inr hm))
    cases y with
    | taken r q => by_cases hr : r = d <;> simp [handedBy_cons, Happening.handedBy?, rounds, hr, ih]
    | handed r e subscribers =>
      by_cases hr : r = d
      · cases hh : rounds d h with
        | nil =>
          -- before the first run nothing is handed out
          have ht : takenBy d (.handed r e subscribers :: h) = [] := by
            rw [takenBy_eq_rounds]
            simp [rounds, hr, hh]
          have := (ho _ (List.suffix_refl _) ht).1
          simp [handedBy_cons, Happening.handedBy?, hr] at this
        | cons r rs =>
          simp [handedBy_cons, Happening.handedBy?, rounds, hr, ih, hh, Round.hand]
      · simp [handedBy_cons, Happening.handedBy?, rounds, hr, ih]
    | _ => simp [handedBy_cons, Happening.handedBy?, rounds, ih]

/-- Where all rounds are complete, what was taken was handed out, in order. -/
theorem handedBy_of_complete (ho : Opened d h) (hc : ∀ r ∈ rounds d h, r.Complete) :
    (handedBy d h).map (·.1) = (takenBy d h).flatten := by
  rw [handedBy_eq_rounds ho, takenBy_eq_rounds, List.map_flatMap, List.flatMap_def]
  exact congrArg _ (List.map_congr_left fun r hr => hc r (List.mem_reverse.mp hr))

/-- What an item requested of one domain is among all that it requested. -/
theorem requestsTo_sublist (d item : Nat) (h : List Happening) :
    (((requestsTo d h).filter (·.1 = .item item)).map (·.2)).Sublist (requestedBy item h) := by
  unfold requestsTo requestedBy
  induction h.reverse with
  | nil => exact List.nil_sublist _
  | cons y l ih =>
    cases y with
    | requested issuer r e =>
      cases r with
      | none =>
        refine ih.trans ?_
        exact (List.sublist_cons_self _ l).filterMap _
      | some r =>
        by_cases hr : r = d
        · cases issuer with
          | item j =>
            by_cases hj : j = item <;>
              simpa [Happening.requestTo?, Happening.requestedBy?, hr, hj] using ih
          | _ =>
            rw [List.filterMap_cons_none (f := Happening.requestedBy? item) rfl]
            simpa [Happening.requestTo?, hr] using ih
        · have := ih.trans ((List.sublist_cons_self (.requested issuer (some r) e) l).filterMap
            (Happening.requestedBy? item))
          simpa [Happening.requestTo?, hr] using this
    | _ => exact ih

namespace World

/-- The books of a cooperative domain and the history of its runs agree, and what the runs took was
delivered. -/
structure Settled (d : Nat) (w : World) : Prop where
  /-- What has been requested was taken or is queued, in order. -/
  requests : (takenBy d w.history).flatten ++ (w.domain d).queue =
    (requestsTo d w.history).map (·.2)
  /-- What was taken was handed out, in order. -/
  handed : (handedBy d w.history).map (·.1) = (takenBy d w.history).flatten
  taken : (rounds d w.history).map (·.taken) = (takenBy d w.history).reverse
  received : (w.domain d).books.received =
    (takenBy d w.history).flatten.length + (w.domain d).queue.length
  runs : (w.domain d).books.runs = (takenBy d w.history).countP fun q => !q.isEmpty
  executions : (w.domain d).books.executions =
    ((rounds d w.history).map fun r => r.stats.executed).sum
  /-- Whoever is notified once of each event of an item sees them in the order of its writes, if
  nobody but the item speaks in its name. -/
  ordered : ∀ x, ∀ i < w.items.next,
    (∀ p ∈ requestsTo d w.history, p.2.source = (w.item i).source → p.1 = .item i) →
    (∀ leg ∈ handedBy d w.history, leg.1.source = (w.item i).source → leg.2.count x ≤ 1) →
      (seen x (w.item i).source (handedBy d w.history)).Pairwise (· < ·)

variable {w : World} {e : Ending}

/-- The events of an item that a domain has received are in the order of its writes. -/
theorem pairwise_of_requests {i : Nat} (hl : w.InStep) (hi : i < w.items.next)
    (ho : ∀ p ∈ requestsTo d w.history, p.2.source = (w.item i).source → p.1 = .item i) :
    ((((requestsTo d w.history).map (·.2)).filter (·.source = (w.item i).source)).map
      (·.sequence)).Pairwise (· < ·) := by
  have hs : ((requestsTo d w.history).filter (·.2.source = (w.item i).source)).Sublist
      ((requestsTo d w.history).filter (·.1 = .item i)) := by
    have : (requestsTo d w.history).filter (·.2.source = (w.item i).source) =
        ((requestsTo d w.history).filter (·.1 = .item i)).filter
          (·.2.source = (w.item i).source) := by
      rw [List.filter_filter]
      refine List.filter_congr fun p hp => ?_
      have := ho p hp
      by_cases hq : p.2.source = (w.item i).source <;> simp_all
    rw [this]
    exact List.filter_sublist
  have h := ((hs.map (·.2)).trans (requestsTo_sublist d i w.history)).map (·.sequence)
  rw [(hl.tallies hi).requests, List.map_map, List.map_map] at h
  rw [List.filter_map, List.map_map]
  refine List.Pairwise.sublist h ?_
  rw [show ((·.sequence) ∘ fun n => (⟨(w.item i).source, n⟩ : Event)) = id from rfl, List.map_id]
  exact List.pairwise_lt_range'

/-- Where all has been in keeping with the docket of a domain from the beginning, and no run of the
domain was disturbed, all is settled. -/
theorem settled_of_docket (h : (docket d True).rel {} e w) (he : e ≠ .stuck) (hl : w.InStep)
    (hk : (w.domain d).kind = .cooperative) (hu : GuardedStore.Undisturbed d w.history) :
    w.Settled d := by
  obtain ⟨newer, hb, ho⟩ := h.2 fun _ => hk
  obtain rfl : newer = w.history := (hb.history.trans (List.append_nil newer)).symm
  obtain ⟨rs, hr⟩ := (ho trivial).rounded he hu rfl
  obtain rfl : rs = rounds d w.history := (hr.rounds.trans (List.append_nil rs)).symm
  have hq : (takenBy d w.history).flatten ++ (w.domain d).queue =
      (requestsTo d w.history).map (·.2) := by
    rw [← Domain.queue_books]
    exact hb.queue
  have hh := handedBy_of_complete (ho trivial).opened hr.complete
  refine ⟨hq, hh, ?_, ?_, ?_, ?_, fun x i hi hi' hx => ?_⟩
  · rw [takenBy_eq_rounds, ← List.map_reverse, List.reverse_reverse]
  · rw [hb.received, ← List.length_append, hq, List.length_map]
    exact Nat.zero_add _
  · rw [hr.runs, takenBy_eq_rounds, List.countP_map, List.countP_reverse]
    exact Nat.zero_add _
  · rw [hr.executions]
    exact Nat.zero_add _
  · refine (pairwise_of_requests hl hi hi').sublist ((seen_sublist hx).trans ?_)
    rw [hh, ← hq, List.filter_append]
    exact (List.sublist_append_left _ _).map _

end World

namespace Engine

variable {call : Nat → Engine Unit} {w v : World} {r : Round}

/-- What a run does that comes to its end while no other run of its domain begins. -/
structure Serves (call : Nat → Engine Unit) (d : Nat) (w : World) (r : Round) (v : World) : Prop
    extends Completes call d w r v where
  once : r.woken.Nodup
  notified : ∀ x, x ∈ r.woken ↔ ∃ leg ∈ r.legs, x ∈ leg.2
  round : rounds d v.history = r :: rounds d w.history
  /-- The domain hands out nothing else, and what is requested meanwhile stays queued. -/
  meanwhile : ∃ newer, v.history = newer ++ w.history ∧ handedBy d newer = r.legs ∧
    (v.domain d).queue = (requestsTo d newer).map (·.2) ∧
    (v.domain d).books.received = (w.domain d).books.received + (requestsTo d newer).length
  runs : (v.domain d).books.runs = (w.domain d).books.runs + if r.taken = [] then 0 else 1
  executions : (v.domain d).books.executions =
    (w.domain d).books.executions + r.stats.executed

/-- With the queue that a run takes at its start there is no room for another one. -/
theorem takenBy_eq_nil_of_length {u : World} {n : List Happening}
    (hn : u.history = n ++ (w.taking d).history) (hs : u.history <:+ v.history)
    (ht : (takenBy d v.history).length = (takenBy d w.history).length + 1) :
    takenBy d n = [] := by
  obtain ⟨k, hk⟩ := hs
  have hl := congrArg (fun h => (takenBy d h).length) (hk.symm.trans (by rw [hn]))
  have h1 : takenBy d (w.taking d).history = takenBy d w.history ++ [(w.domain d).queue] := by
    show takenBy d ([.taken d _] ++ w.history) = _
    rw [takenBy_append]
    simp [takenBy, Happening.takenBy?]
  simp only [takenBy_append, h1, List.length_append, List.length_singleton, ht] at hl
  exact List.eq_nil_of_length_eq_zero (by omega)

theorem serves_of_completes (hc : ∀ r, (call r).Keeps (docket d True)) (hw : w.Sound)
    (hd : d < w.domains.next) (hk : (w.domain d).kind = .cooperative) {stats : RunStats}
    (h : runPending call d w = (.done stats, v))
    (ht : (takenBy d v.history).length = (takenBy d w.history).length + 1) :
    ∃ r, stats = r.stats ∧ Serves call d w r v := by
  have hi : (docket d False).inv w := ⟨hw, fun h => absurd hd (Nat.not_lt.mpr h)⟩
  obtain ⟨r, hs, hr⟩ := completes_of_done h
  obtain ⟨hrd, newer, hn, htn, hh⟩ := rounded_of_completes hc hd hk hi hr fun _ u n hu hs =>
    takenBy_eq_nil_of_length hu.history hs ht
  have hv := (runPending_docket hc hd hk).holds hi h
  obtain ⟨newer', hb, -⟩ := hv.2.2 fun _ => (hv.2.1.kind hd).trans hk
  obtain rfl : newer' = newer := List.append_cancel_right (hb.history.symm.trans hn)
  refine ⟨r, hs, ⟨hr, ?_, ?_, ?_, ?_, ?_, ?_⟩⟩
  · exact nodup_eraseDups _
  · intro x
    simp [Round.woken, Round.notified, List.mem_eraseDups]
  · exact hrd.rounds
  · refine ⟨newer', hn, hh, ?_, hb.received⟩
    have hq := hb.queue
    rw [htn, hr.taken, ← Domain.queue_books, List.flatten_singleton] at hq
    rw [← Domain.queue_books]
    exact List.append_cancel_left hq
  · rw [hrd.runs]
    cases hq : r.taken <;> simp [hq]
  · rw [hrd.executions]
    simp [Round.stats]

end Engine

namespace Scenario

theorem callWithin_docket (d depth : Nat) (r : Nat) : (callWithin depth r).Keeps (docket d True) := by
  rw [← callUntil_never]
  exact callUntil_keeps (fun _ hc => docket_admits hc) _ depth r

theorem sound_unwinding_docket {w : World} (hw : (docket d True).inv w) :
    (docket d True).Holds w .done { w with unwinding := false } := by
  have hg : w.Grows { w with unwinding := false } := { World.Grows.refl w with }
  exact (World.offDocket_of_same hg (World.sound_unwinding false hw.1) rfl
    ⟨[], by simp, rfl⟩).holds hw

/-- Between the steps of a run the docket has been kept from the beginning. -/
theorem settled_docket (d : Nat) {depth : Nat} {steps : List Step} {w : World}
    (h : settled depth {} steps = some w) : ∃ e, e ≠ .stuck ∧ (docket d True).rel {} e w := by
  have h₀ : (docket d True).inv {} := ⟨World.sound_empty, fun _ => rfl⟩
  refine ((settled_inv (P := fun w => (docket d True).inv w ∧
      ∃ e, e ≠ .stuck ∧ (docket d True).rel {} e w) (fun _ hc => docket_admits hc)
    (fun _ hw => (sound_unwinding_docket hw).1) (fun w hw => ?_)
    (fun {u e v} hu hP hv he => ?_) h₀ ⟨h₀, .done, by decide, (docket d True).refl h₀⟩ h).2).2
  · obtain ⟨hi, e, he, hr⟩ := hw
    have hv := sound_unwinding_docket hi
    exact ⟨hv.1, e.andThen .done, by cases e <;> simp_all [Ending.andThen],
      (docket d True).trans h₀ hi hr he hv.2⟩
  · obtain ⟨-, e', he', hr⟩ := hP
    exact ⟨hv.1, e'.andThen e, by cases e <;> cases e' <;> simp_all [Ending.andThen],
      (docket d True).trans h₀ hu hr he' hv.2⟩

/-- A run that no other run of its domain interrupts delivers what was queued, and fails only where
somebody it calls does; and where no run is disturbed, the books of the domain agree with all that
its runs did. -/
theorem runPending_serves (depth d : Nat) :
    (∀ w : World, w.Sound → d < w.domains.next → (w.domain d).kind = .cooperative →
      (∀ stats v, Engine.runPending (callWithin depth) d w = (.done stats, v) →
        (takenBy d v.history).length = (takenBy d w.history).length + 1 →
          ∃ r : Round, stats = r.stats ∧ Engine.Serves (callWithin depth) d w r v) ∧
      ∀ o x v, Engine.runPending (callWithin depth) d w = (o, v) → o.failure? = some x → ∃ z,
        (∃ legs e before s after later, Engine.Breaks (callWithin depth) d (w.taking d)
          legs e before s after later x (w.domain d).queue z) ∨
        ∃ r before s after, r.taken = (w.domain d).queue ∧
          Engine.Stalls (callWithin depth) d (w.taking d) r before s after x z) ∧
    ∀ steps w, settled depth {} steps = some w → (w.domain d).kind = .cooperative →
      Undisturbed d w.history → w.Settled d := by
  refine ⟨fun w hw hd hk => ⟨fun stats v h ht => ?_, fun o x v h hx => ?_⟩, fun steps w h hk hu => ?_⟩
  · exact Engine.serves_of_completes (callWithin_docket d depth) hw hd hk h ht
  · obtain ⟨z, -, hz⟩ := Engine.course_of_failed hx ((Engine.runPending_apply ..).symm.trans h)
    exact ⟨z, hz⟩
  · obtain ⟨e, he, hr⟩ := settled_docket d h
    have hl := reached_inStep (fun _ => false) depth steps
    rw [reached_of_settled h] at hl
    exact World.settled_of_docket hr he hl hk hu

/-- Somebody subscribes twice to one item and once to another; the first time they are notified they
write to the first item and drop somebody else. -/
def crossSubscribed : List Step :=
  [.domain "d" "d" .cooperative,
    .store "s" (.builder [.affinity (some "d")]),
    .create "s" "k" "n" .int64 (.int 0) none .none,
    .create "s" "l" "m" .int64 (.int 0) none .none,
    .dependent "p" (some (Script.window 0 (some 1)
      [.write "k" none (.int 4), .dropDependent "q"])) none,
    .dependent "q" none none,
    .dependent "r" none none,
    .subscribe (some "d") (.key "k") "p",
    .subscribe (some "d") (.key "k") "q",
    .subscribe (some "d") (.key "l") "p",
    .subscribe (some "d") (.key "l") "p",
    .subscribe (some "d") (.key "k") "r",
    .dropDependent "r",
    .write "k" none (.int 1),
    .write "l" none (.int 2),
    .write "k" none (.int 3)]

theorem crossSubscribed_served :
    (∃ r v, r.stats = ⟨5, 15, 3⟩ ∧ Engine.Serves (callWithin maxDepth) 0
      (reached (fun _ => false) maxDepth {} crossSubscribed) r v) ∧
    ∃ w, settled maxDepth {} (crossSubscribed ++ [.runPending "d", .runPending "d"]) = some w ∧
      w.Settled 0 ∧
      seen (.dependent 0) (w.item 0).source (handedBy 0 w.history) = [1, 2, 3, 4] := by
  obtain ⟨ha, hb⟩ := runPending_serves maxDepth 0
  constructor
  · have hw := (reached_inStep (fun _ => false) maxDepth crossSubscribed).sound
    have hd := Engine.eq_of_outcome (m := Engine.runPending (callWithin maxDepth) 0)
      (w := reached (fun _ => false) maxDepth {} crossSubscribed) (o := .done ⟨5, 15, 3⟩)
      (by decide +kernel)
    obtain ⟨r, hr, hs⟩ := (ha _ hw (by decide +kernel) (by decide +kernel)).1 _ _ hd
      (by decide +kernel)
    exact ⟨r, _, hr.symm, hs⟩
  · have hw : settled maxDepth {} (crossSubscribed ++ [.runPending "d", .runPending "d"]) = _ :=
      settled_eq_some (by decide +kernel)
    exact ⟨_, hw, hb _ _ hw (by decide +kernel) (by decide +kernel), by decide +kernel⟩

end Scenario

end GuardedStore
