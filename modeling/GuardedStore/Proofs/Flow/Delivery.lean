import GuardedStore.Proofs.Flow.Execution

/-!
Deliveries keep the flow.

What a run takes from a queue it hands out, and what is handed to the store is signalled to it. A
delivery ends by giving everyone whom it notified the occasion to act, so that nothing it signalled
is left waiting.
-/
namespace GuardedStore

variable {s : Nat}

namespace World

variable {w w' : World}

/-- Those who hear of an event from a domain were made before. -/
theorem Sound.live_lt (hw : w.Sound) {d r : Nat} {source : Source}
    (hr : .store r ∈ w.liveSubscribers d source) : r < w.stores.next :=
  hw.subscribers (List.mem_filter.mp hr).1

/-- The flow counts from what the world was before a change that it is no concern of. -/
theorem Flows.of_before {owed : Event → Nat} {due : Nat → Event → Nat} {u : World} {e : Ending}
    (h : u.Flows s owed due e w') (hg : w.Grows u) (hs : (u.store s).signal = (w.store s).signal)
    (hh : u.history = w.history) : w.Flows s owed due e w' where
  grows := hg.trans h.grows
  raised he := hh ▸ h.raised he
  done he := by
    obtain ⟨newer, hn⟩ := h.done he
    exact ⟨newer, hh ▸ hn.history, hn.signals, hn.deals, hn.hooks, hs ▸ hn.executions⟩
  running he hr := by
    rw [← hs] at hr
    exact hh ▸ h.running he hr

theorem counted_handing (hw : w.Counted s) {d : Nat} {e : Event}
    (ha : ∃ issuer, .requested issuer (some d) e ∈ w.history) : (w.handing d e).Counted s := by
  refine hw.record (fun _ _ => ⟨rfl, rfl⟩) rfl fun {r a subs} he => ?_
  cases he
  exact ha

theorem counted_taking (hw : w.Counted s) {d : Nat} (hd : d < w.domains.next) :
    (w.taking d).Counted s := by
  refine hw.requeue [.taken d (w.domain d).queue] (w.quiet_taking d).still rfl rfl
    (by simp [Happening.resignals]) (fun r e _ => ?_) (fun r hr => ?_) (hw.asked.cons nofun)
  · rw [domain_taking]
    by_cases hr : d = r
    · subst hr
      simp [Happening.requests, Happening.takes]
    · rw [if_neg (Ne.symm hr)]
      simp [Happening.requests, Happening.takes, hr]
  · have hne : d ≠ r := Nat.ne_of_lt (Nat.lt_of_lt_of_le hd hr)
    rw [domain_taking, if_neg (Ne.symm hne)]
    simp [Happening.requests, Happening.takes, hne]

/-- A request of a domain that does not queue it. -/
theorem counted_requesting (hw : w.Counted s) {domain : Option Nat} (hd : w.Offers domain)
    (hk : ∀ d, domain = some d → (w.domain d).kind ≠ .cooperative) (issuer : Issuer) (e : Event) :
    (w.requesting issuer domain e).Counted s := by
  refine hw.requeue [.requested issuer domain e] (w.still_record _) rfl rfl
    (by simp [Happening.resignals]) (fun r a hr => ?_) (fun r hr => ?_) (hw.asked.cons nofun)
  · have hz : Happening.requests r a (.requested issuer domain e) = 0 := by
      cases domain with
      | none => rfl
      | some d =>
        refine if_neg ?_
        rintro ⟨rfl, -⟩
        exact hk d rfl hr
    rw [tally_cons, hz]
    rfl
  · refine ⟨rfl, fun a => ⟨?_, rfl⟩⟩
    have hz : Happening.requests r a (.requested issuer domain e) = 0 := by
      cases domain with
      | none => rfl
      | some d =>
        refine if_neg ?_
        rintro ⟨rfl, -⟩
        exact absurd (hd d rfl) (Nat.not_lt_of_le hr)
    rw [tally_cons, hz]
    rfl

end World

namespace Engine

variable {call : Nat → Engine Unit} (hc : ∀ r, (call r).Keeps (flow s)) {α : Type} {w : World}
  {owed owed' : Event → Nat} {due due' : Nat → Event → Nat} {P : α → World → Prop}

/-- What a domain hands out is signalled by what comes after. -/
theorem handing_yields {m : Engine α} {d : Nat} {e : Event}
    (hm : m.Yields s owed' due' P (w.handing d e))
    (ho : ∀ a, owed' a =
      (if e = a then (w.liveSubscribers d e.source).count (.store s) else 0) + owed a)
    (hd : ∀ r a, (w.domain r).kind ≠ .immediate →
      (if d = r ∧ e = a then 1 else 0) + due' r a = due r a) (hw : w.Counted s)
    (ha : ∃ issuer, .requested issuer (some d) e ∈ w.history) :
    (record (.handed d e (w.liveSubscribers d e.source)) >>= fun _ => m).Yields s owed due P w := by
  intro o v h
  obtain ⟨hv, hf, hp⟩ := hm o v h
  refine ⟨hv, hf.after_record rfl rfl (fun a => ?_) fun r a hk => ?_, hp⟩
  · rw [ho]
    simp [Happening.signals, Happening.hands, Happening.prompts]
  · have hk := World.Counted.kind_ne_immediate (World.counted_handing hw ha) hf.grows hk
    rw [← hd r a hk]
    simp [Happening.deals, Happening.takes]

include hc

theorem notifyAll_yields (e : Event) (subs : List Subscriber) : ∀ {p w}, w.Counted s →
    (∀ r, .store r ∈ subs → r < w.stores.next) →
    (notifyAll call e p subs).Yields s (fun a => if e = a then subs.count (.store s) else 0)
      (fun _ _ => 0)
      (fun p' v => (.store s ∈ p'.woken ∨ w.Prompt s v) ∧ (∀ x ∈ p.woken, x ∈ p'.woken) ∧
        ∀ x ∈ p'.woken, x ∈ p.woken ∨ x ∈ subs) w := by
  induction subs with
  | nil =>
    intro p w hw _
    refine (yields_pure hw ?_).mono (fun a => by simp) (fun _ _ => rfl) fun _ _ _ h => h
    exact ⟨.inr fun _ he => .inl he, fun _ hx => hx, fun _ hx => .inl hx⟩
  | cons x subs ih =>
    intro p w hw hs
    have hx := notify_yields hc hw (x := x) (fun r hr => hs r (by simp [hr])) e
    have hrest (u : World) (hu : u.Counted s) (hg : w.Grows u)
        (hp : x = .store s ∨ w.Prompt s u) :
        (notifyAll call e { notified := p.notified + 1, woken :=
            if p.woken.contains x then p.woken else p.woken ++ [x] } subs).Yields s
          (fun a => if e = a then subs.count (.store s) else 0) (fun _ _ => 0)
          (fun p' v => (.store s ∈ p'.woken ∨ w.Prompt s v) ∧ (∀ x ∈ p.woken, x ∈ p'.woken) ∧
            ∀ y ∈ p'.woken, y ∈ p.woken ∨ y ∈ x :: subs) u := by
      have hmem : x ∈ if p.woken.contains x then p.woken else p.woken ++ [x] := by
        split <;> simp_all
      have hsub (y : Subscriber) : y ∈ (if p.woken.contains x then p.woken else p.woken ++ [x]) ↔
          y ∈ p.woken ∨ y = x := by
        split
        · simp_all
        · simp
      refine (ih hu fun r hr => Nat.lt_of_lt_of_le (hs r (by simp [hr])) hg.stores).mono
        (fun _ => rfl) (fun _ _ => rfl) fun p' v hg' h => ⟨?_, fun y hy => ?_, fun y hy => ?_⟩
      · rcases h.1 with h1 | h1
        · exact .inl h1
        · rcases hp with rfl | hp
          · exact .inl (h.2.1 _ hmem)
          · exact .inr (hp.trans hg' h1)
      · exact h.2.1 y ((hsub y).mpr (.inl hy))
      · rcases h.2.2 y hy with h1 | h1
        · rcases (hsub y).mp h1 with h1 | rfl
          · exact .inl h1
          · exact .inr List.mem_cons_self
        · exact .inr (List.mem_cons_of_mem x h1)
    refine (hx.bind fun _ u hu hg hp => hrest u hu hg hp).mono (fun a => ?_) (fun _ _ => rfl)
      fun _ _ _ h => h
    by_cases he : e = a <;> simp [he, List.count_cons, Nat.add_comm]

/-- Whoever is given the occasion to act has nothing waiting afterwards. -/
theorem executes_yield (xs : List Subscriber) : ∀ {w}, w.Counted s →
    (∀ r, .store r ∈ xs → r < w.stores.next) →
    (xs.forM (execute call)).Yields s (fun _ => 0) (fun _ _ => 0)
      (fun _ v => w.Prompt s v ∧ (.store s ∈ xs → v.Served s)) w := by
  induction xs with
  | nil =>
    intro w hw _
    exact yields_pure hw ⟨fun _ he => .inl he, by simp⟩
  | cons x xs ih =>
    intro w hw hs
    have hx := execute_yields hc hw (x := x) fun r hr => hs r (by simp [hr])
    have hrest (u : World) (hu : u.Counted s) (hg : w.Grows u)
        (hp : w.Prompt s u ∧ (x = .store s → u.Served s)) :
        (xs.forM (execute call)).Yields s (fun _ => 0) (fun _ _ => 0)
          (fun _ v => w.Prompt s v ∧ (.store s ∈ x :: xs → v.Served s)) u := by
      refine (ih hu fun r hr => Nat.lt_of_lt_of_le (hs r (by simp [hr])) hg.stores).mono
        (fun _ => rfl) (fun _ _ => rfl) fun _ v hg' h => ⟨hp.1.trans hg' h.1, fun hm => ?_⟩
      rcases List.mem_cons.mp hm with hm | hm
      · exact (hp.2 hm.symm).after hg' h.1
      · exact h.2 hm
    exact (hx.bind fun _ u hu hg hp => hrest u hu hg hp).mono (fun _ => rfl) (fun _ _ => rfl)
      fun _ _ _ h => h

theorem deliverAtOnce_yields (e : Event) (subs : List Subscriber) : ∀ {w}, w.Counted s →
    (∀ r, .store r ∈ subs → r < w.stores.next) →
    (deliverAtOnce call e subs).Yields s (fun a => if e = a then subs.count (.store s) else 0)
      (fun _ _ => 0) (fun _ v => w.Prompt s v) w := by
  induction subs with
  | nil =>
    intro w hw _
    refine (yields_pure hw ?_).mono (fun a => by simp) (fun _ _ => rfl) fun _ _ _ h => h
    exact fun _ he => .inl he
  | cons x subs ih =>
    intro w hw hs
    have hx : ∀ r, x = .store r → r < w.stores.next := fun r hr => hs r (by simp [hr])
    have hact (u : World) (hu : u.Counted s) (hg : w.Grows u)
        (hp : x = .store s ∨ w.Prompt s u) :
        (execute call x).Yields s (fun _ => 0) (fun _ _ => 0) (fun _ v => w.Prompt s v) u := by
      refine (execute_yields hc hu fun r hr => Nat.lt_of_lt_of_le (hx r hr) hg.stores).mono
        (fun _ => rfl) (fun _ _ => rfl) fun _ v hg' h => ?_
      rcases hp with hp | hp
      · exact (h.2 hp).prompt
      · exact hp.trans hg' h.1
    have hrest (u : World) (hu : u.Counted s) (hg : w.Grows u) (hp : w.Prompt s u) :
        (deliverAtOnce call e subs).Yields s
          (fun a => if e = a then subs.count (.store s) else 0) (fun _ _ => 0)
          (fun _ v => w.Prompt s v) u :=
      (ih hu fun r hr => Nat.lt_of_lt_of_le (hs r (by simp [hr])) hg.stores).mono (fun _ => rfl)
        (fun _ _ => rfl) fun _ v hg' h => hp.trans hg' h
    have hboth := (notify_yields hc hw hx e).bind fun _ u hu hg hp => hact u hu hg hp
    refine (hboth.bind fun _ u hu hg hp => hrest u hu hg hp).mono (fun a => ?_) (fun _ _ => rfl)
      fun _ _ _ h => h
    by_cases he : e = a <;> simp [he, List.count_cons, Nat.add_comm]

end Engine

end GuardedStore
