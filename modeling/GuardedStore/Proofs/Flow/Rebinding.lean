import GuardedStore.Proofs.Flow.Balance

/-!
Events that are under way while their store is bound to another domain.

An event stays in the queue of the domain that it was requested of. It reaches the store only if the
store is bound to that domain when the event is handed out; what becomes of the binding before does
not matter.
-/
namespace GuardedStore

/-- Whether somebody other than an item is behind an event that its store hears of, or sees to it
that the store does not. -/
def Happening.feigns (s i : Nat) (e : Event) : Happening → Bool
  | requested issuer _ x => x = e ∧ issuer ≠ .item i
  | prompted t x => t = s ∧ x = e
  | unsubscribed _ source => source = e.source
  | _ => false

/-- Counting is weighing by one and nothing. -/
theorem tally_countP (p : Happening → Bool) (h : List Happening) :
    tally (fun y => if p y then 1 else 0) h = h.countP p := by
  induction h with
  | nil => rfl
  | cons y h ih =>
    rw [tally_cons, ih, List.countP_cons, Nat.add_comm]

namespace World

variable {w : World} {s d i : Nat} {e : Event}

/-- Nobody but an item requested an event, and nobody who is not a domain let the item's store know
of it or had a hand in the subscriptions of its source. -/
structure Genuine (w : World) (s i : Nat) (e : Event) : Prop where
  owns : w.Owns s i
  alone : ∀ y ∈ w.history, y.feigns s i e = false

theorem Genuine.issued (h : w.Genuine s i e) {issuer : Issuer} {a : Option Nat}
    (hm : .requested issuer a e ∈ w.history) : issuer = .item i := by
  simpa [Happening.feigns] using h.alone _ hm

theorem Genuine.unprompted (h : w.Genuine s i e) : .prompted s e ∉ w.history := fun hm => by
  simpa [Happening.feigns] using h.alone _ hm

theorem Genuine.undisturbed (h : w.Genuine s i e) (a : Option Nat) :
    .unsubscribed a e.source ∉ w.history := fun hm => by
  simpa [Happening.feigns] using h.alone _ hm

/-- An item requests each of its events once. -/
theorem InStep.count_requestedBy (hl : w.InStep) (hi : i < w.items.next) {a : Option Nat}
    (hm : .requested (.item i) a e ∈ w.history) : (requestedBy i w.history).count e = 1 := by
  have he : e ∈ requestedBy i w.history :=
    List.mem_filterMap.mpr ⟨_, List.mem_reverse.mpr hm, if_pos rfl⟩
  refine List.count_eq_one_of_mem ?_ he
  rw [(hl.tallies hi).requests]
  refine List.Nodup.map (fun m n hmn => ?_) List.nodup_range'
  injection hmn

/-- An event that only an item requests was requested of one domain, and once. -/
theorem Genuine.request (hg : w.Genuine s i e) (hl : w.InStep) {issuer : Issuer} {a b : Option Nat}
    (ha : .requested (.item i) a e ∈ w.history) (hb : .requested issuer b e ∈ w.history) :
    b = a := by
  obtain rfl := hg.issued hb
  have hcount := hl.count_requestedBy hg.owns.1 ha
  rw [requestedBy, List.count_filterMap, List.countP_eq_length_filter,
    List.length_eq_one_iff] at hcount
  obtain ⟨y, hy⟩ := hcount
  have hmem {c : Option Nat} (hc : .requested (.item i) c e ∈ w.history) :
      Happening.requested (.item i) c e = y := by
    rw [← List.mem_singleton, ← hy, List.mem_filter, List.mem_reverse]
    exact ⟨hc, by simp [Happening.requestedBy?]⟩
  cases (hmem ha).trans (hmem hb).symm
  rfl

theorem Genuine.tally_requests (hg : w.Genuine s i e) (hl : w.InStep)
    (hr : .requested (.item i) (some d) e ∈ w.history) :
    tally (Happening.requests d e) w.history = 1 := by
  rw [← hl.count_requestedBy hg.owns.1 hr, requestedBy, List.count_filterMap,
    (List.reverse_perm _).countP_eq, ← tally_countP]
  refine tally_congr fun y hy => ?_
  cases y with
  | requested issuer a x =>
    by_cases hx : x = e
    · subst hx
      obtain rfl := hg.issued hy
      obtain rfl := hg.request hl hr hy
      simp [Happening.requests, Happening.requestedBy?]
    · cases issuer <;> cases a <;> simp [Happening.requests, Happening.requestedBy?, hx]
  | _ => rfl

/-- An event that only one domain hands out reaches the store as often as it was handed to it at
that one time. -/
theorem hands_of_deals {history : List Happening}
    (hd : ∀ {r subs older}, .handed r e subs :: older <:+ history → r = d) :
    ∀ {h}, h <:+ history →
      (tally (Happening.deals d e) h = 0 → tally (Happening.hands s e) h = 0) ∧
      (tally (Happening.deals d e) h = 1 → ∃ subs older, .handed d e subs :: older <:+ h ∧
        tally (Happening.hands s e) h = subs.count (.store s)) := by
  intro h
  induction h with
  | nil => exact fun _ => ⟨fun _ => rfl, fun h => by cases h⟩
  | cons y h ih =>
    intro hh
    obtain ⟨ih₀, ih₁⟩ := ih ((List.suffix_cons y h).trans hh)
    by_cases hy : ∃ r subs, y = .handed r e subs
    · obtain ⟨r, subs, rfl⟩ := hy
      obtain rfl := hd hh
      simp only [tally_cons, Happening.deals, Happening.hands, and_self, if_true]
      refine ⟨fun h => by omega, fun h => ⟨subs, _, List.suffix_refl _, ?_⟩⟩
      rw [ih₀ (by omega), Nat.add_zero]
    · -- nothing else is weighed
      have hz : y.deals d e = 0 ∧ y.hands s e = 0 := by
        cases y with
        | handed r x subs =>
          have hx : x ≠ e := fun hx => hy ⟨r, subs, by rw [hx]⟩
          simp [Happening.deals, Happening.hands, hx]
        | _ => exact ⟨rfl, rfl⟩
      rw [tally_cons, tally_cons, hz.1, hz.2, Nat.zero_add, Nat.zero_add]
      refine ⟨ih₀, fun h => ?_⟩
      obtain ⟨subs, older, hs, ht⟩ := ih₁ h
      exact ⟨subs, older, hs.trans (List.suffix_cons _ _), ht⟩

/-- An event reaches the store if it is bound where the event is handed out, unless the item is no
more. -/
theorem Genuine.fared (hg : w.Genuine s i e) (ht : w.Truthful) {subs : List Subscriber}
    {older : List Happening} (hk : (w.domain d).kind = .cooperative)
    (hr : .requested (.item i) (some d) e ∈ older) (hs : .handed d e subs :: older <:+ w.history) :
    subs.count (.store s) =
      if binding s older = some (some d) ∧ perished e.source older = false then 1 else 0 := by
  have hf := ht.handed hs
  have hold : older <:+ w.history := (List.suffix_cons _ _).trans hs
  have hu (a : Option Nat) : .unsubscribed a e.source ∉ older := fun h =>
    hg.undisturbed a (hold.subset h)
  have ho : e.source.owner = .drawn s := by
    obtain ⟨t, hti, hsrc, -⟩ := ht.byItem (hold.subset hr)
    rw [hsrc]
    exact hg.owns.2
  by_cases hb : binding s older = some (some d)
  · rw [(hf.there ho hu hb).2 (by rw [hk]; decide) (.item i) (some d) nofun hr]
    cases perished e.source older <;> simp [hb]
  · rw [if_neg fun h => hb h.1, List.count_eq_zero]
    exact hf.elsewhere ho hu hb

end World

namespace Scenario

/-- Once the queue is empty, the event of a stored write has been counted by one execution of the
store, and there once, if the store was bound to the domain when the event was handed out and the
item had not been destroyed; else no execution has counted it. -/
theorem counted_where_bound {depth : Nat} {steps : List Step} {w : World} {s d i : Nat} {e : Event}
    (h : settled depth {} steps = some w) (hp : ¬ Panicked w.history) (hg : w.Genuine s i e)
    (hk : (w.domain d).kind = .cooperative)
    (hr : .requested (.item i) (some d) e ∈ w.history) (hq : e ∉ (w.domain d).queue) :
    (triggersCounted s w.history = ((executions s w.history).map List.length).reverse) ∧
    ∃ subs older, .handed d e subs :: older <:+ w.history ∧
      (executions s w.history).flatten.count e =
        if binding s older = some (some d) ∧ perished e.source older = false then 1 else 0 := by
  obtain ⟨hc, hb, hserved⟩ := settled_flow s h hp
  have ht := ((settled_estates h).1.2 hp).truthful
  have hl : w.InStep := reached_of_settled h ▸ reached_inStep (fun _ => false) depth steps
  have hdealt : tally (Happening.deals d e) w.history = 1 := by
    have := hg.tally_requests hl hr
    have := hc.queue e hk
    have := hb.deals (d := d) e (by rw [hk]; decide)
    have := List.count_eq_zero.mpr hq
    omega
  have honly {r : Nat} {subs : List Subscriber} {older : List Happening}
      (hs : .handed r e subs :: older <:+ w.history) : r = d := by
    obtain ⟨issuer, hm⟩ := hc.asked r e subs older hs
    exact Option.some.inj (hg.request hl hr (((List.suffix_cons _ _).trans hs).subset hm))
  obtain ⟨subs, older, hs, hhands⟩ :=
    (World.hands_of_deals (s := s) honly (List.suffix_refl _)).2 hdealt
  refine ⟨hc.groups, subs, older, hs, ?_⟩
  have hold : .requested (.item i) (some d) e ∈ older := by
    obtain ⟨issuer, hm⟩ := hc.asked d e subs older hs
    have := hg.issued (((List.suffix_cons _ _).trans hs).subset hm)
    exact this ▸ hm
  have hprompts : tally (Happening.prompts s e) w.history = 0 := tally_eq_zero fun y hy => by
    cases y with
    | prompted t x =>
      refine if_neg ?_
      rintro ⟨rfl, rfl⟩
      exact hg.unprompted hy
    | _ => rfl
  have hwaiting : (waiting s w.history).count e = 0 :=
    List.count_eq_zero.mpr fun he => hg.unprompted (hserved e he)
  have hsignals := hb.signals e
  have hcounted := tally_signals s e w.history
  rw [← hg.fared ht hk hold hs]
  omega

/-- A store is bound to another domain while the event of an item's first write is queued; then it
may be bound otherwise, before both domains run. -/
def inFlight (meanwhile : List Step) : List Step :=
  [.domain "old" "old" .cooperative,
    .domain "new" "new" .cooperative,
    .store "s" (.builder [.affinity (some "old")]),
    .onExecute "s" "m" none,
    .create "s" "k" "n" .int64 (.int 0) none .store,
    .setAffinity "s" (some "new")] ++ meanwhile ++
  [.runPending "old",
    .runPending "new",
    .storeInfo "s"]

/-- The event of the first write. -/
def firstEvent : Event :=
  ⟨.item (.drawn 0) ⟨0, 0⟩, 1⟩

/-- A store that is bound back in time counts the write. -/
theorem boundBack_counted :
    let w := reached (fun _ => false) maxDepth {} (inFlight [.setAffinity "s" (some "old")])
    (∃ subs older, .handed 0 firstEvent subs :: older <:+ w.history ∧
      (executions 0 w.history).flatten.count firstEvent =
        if binding 0 older = some (some 0) ∧ perished firstEvent.source older = false then 1
        else 0) ∧
    (executions 0 w.history).flatten.count firstEvent = 1 := by
  intro w
  have hs : settled maxDepth {} (inFlight [.setAffinity "s" (some "old")]) = some w :=
    settled_eq_some (by decide +kernel)
  have hg : w.Genuine 0 0 firstEvent := ⟨by unfold World.Owns; decide +kernel, by decide +kernel⟩
  have h := counted_where_bound hs (by decide +kernel) hg (d := 0) (by decide +kernel)
    (by decide +kernel) (by decide +kernel)
  exact ⟨h.2, by decide +kernel⟩

/-- A store that is not has lost it: the item is alive, both queues are empty, and the store has not
executed. -/
theorem inFlight_uncounted :
    let w := reached (fun _ => false) maxDepth {} (inFlight [])
    (settled maxDepth {} (inFlight []) = some w ∧ ¬ Panicked w.history ∧
      w.Genuine 0 0 firstEvent ∧ (w.item 0).state = .live) ∧
    (.requested (.item 0) (some 0) firstEvent ∈ w.history ∧ (w.domain 0).queue = [] ∧
      (w.domain 1).queue = [] ∧ (w.store 0).affinity = some 1) ∧
    (w.store 0).signal.executions = 0 ∧
    (executions 0 w.history).flatten.count firstEvent ≠ 1 := by
  refine ⟨⟨settled_eq_some (by decide +kernel), by decide +kernel,
    ⟨by unfold World.Owns; decide +kernel, by decide +kernel⟩, ?_⟩, ?_⟩ <;> decide +kernel

end Scenario

end GuardedStore
