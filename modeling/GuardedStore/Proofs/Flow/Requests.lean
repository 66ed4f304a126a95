import GuardedStore.Proofs.Flow.Delivery

/-!
Requests and runs keep the flow.

A domain queues what is requested of it, hands it out at once, or only takes note of it. A run hands
out just what it took from the queue, and nothing that it signalled waits when it is over.
-/
namespace GuardedStore

variable {s : Nat}

namespace World

variable {w w' : World}

/-- Whatever is queued or was taken had been requested. -/
theorem Counted.requested_of_mem (hw : w.Counted s) {d : Nat} {e : Event}
    (hk : (w.domain d).kind = .cooperative) (he : e ∈ (w.domain d).queue) :
    ∃ issuer, .requested issuer (some d) e ∈ w.history := by
  have hpos : 0 < tally (Happening.requests d e) w.history := by
    have := hw.queue e hk
    have := List.count_pos_iff.mpr he
    omega
  refine Classical.byContradiction fun hn => Nat.ne_of_gt hpos (tally_eq_zero fun y hy => ?_)
  cases y with
  | requested issuer domain x =>
    cases domain with
    | none => rfl
    | some r =>
      refine if_neg ?_
      rintro ⟨rfl, rfl⟩
      exact hn ⟨issuer, hy⟩
  | _ => rfl

/-- One more happening that weighs nothing but a request. -/
theorem Flows.note {owed : Event → Nat} {due : Nat → Event → Nat} {y : Happening} {e : Ending}
    (h : World.Flows s owed due { w with history := y :: w.history } e w')
    (hx : y.execution? s = none) (hr : y.ran? s = none)
    (hz : ∀ a, y.signals s a = 0 ∧ y.hands s a = 0 ∧ y.prompts s a = 0)
    (hd : ∀ d a, y.deals d a = 0 ∧ y.takes d a = 0) : w.Flows s owed due e w' := by
  refine h.after_record hx hr (fun a => ?_) fun d a _ => ?_
  · rw [(hz a).1, (hz a).2.1, (hz a).2.2]
  · rw [(hd d a).1, (hd d a).2]

theorem queue_accept {d : Domain} (hk : d.kind = .cooperative) (e : Event) :
    (d.accept e).queue = d.queue ++ [e] := by
  rw [← Domain.queue_books, Domain.books_accept, if_pos hk, Domain.queue_books]

theorem still_queueing (w : World) (issuer : Issuer) (d : Nat) (e : Event) :
    w.Still (w.queueing issuer d e) where
  grows := { (w.quiet_sameTable d fun x => x.sameTable_accept e).grows with
    history := ⟨[_, _], rfl⟩ }
  sound hw :=
    have h := (w.quiet_sameTable d fun x => x.sameTable_accept e).sound hw
    { h with names := h.names.mono (Nat.le_refl _) (Nat.le_refl _) (Nat.le_refl _) }
  stores := rfl
  domains := rfl
  kind := (w.quiet_sameTable d fun x => x.sameTable_accept e).kind

theorem counted_queueing (hw : w.Counted s) {d : Nat} (hd : d < w.domains.next)
    (hk : (w.domain d).kind = .cooperative) (issuer : Issuer) (e : Event) :
    (w.queueing issuer d e).Counted s := by
  refine hw.requeue [.notice (.triggerQueued (w.domain d).label e), .requested issuer (some d) e]
    (w.still_queueing issuer d e) rfl rfl (by simp [Happening.resignals])
    (fun r a _ => ?_) (fun r hr => ?_) (Asked.cons (hw.asked.cons nofun) nofun)
  · rw [domain_queueing]
    by_cases hr : r = d
    · subst hr
      rw [if_pos rfl, queue_accept hk, List.count_append]
      by_cases ha : e = a <;> simp [Happening.requests, Happening.takes, ha, Nat.add_comm]
    · simp [Happening.requests, Happening.takes, hr, Ne.symm hr]
  · have hne : r ≠ d := Nat.ne_of_gt (Nat.lt_of_lt_of_le hd hr)
    rw [domain_queueing, if_neg hne]
    simp [Happening.requests, Happening.takes, Ne.symm hne]

theorem flows_queueing (w : World) (issuer : Issuer) (d : Nat) (e : Event) :
    w.Flows s (fun _ => 0) (fun _ _ => 0) .done (w.queueing issuer d e) := by
  let u : World := { w with history := .requested issuer (some d) e :: w.history }
  let v : World := { u with history := .notice (.triggerQueued (w.domain d).label e) :: u.history }
  have hv : v.Flows s (fun _ => 0) (fun _ _ => 0) .done (w.queueing issuer d e) :=
    (Flows.refl _).of_before (v.quiet_sameTable d fun x => x.sameTable_accept e).grows rfl rfl
  have hu : u.Flows s (fun _ => 0) (fun _ _ => 0) .done (w.queueing issuer d e) :=
    Flows.note hv rfl rfl (fun _ => ⟨rfl, rfl, rfl⟩) fun _ _ => ⟨rfl, rfl⟩
  exact Flows.note hu rfl rfl (fun _ => ⟨rfl, rfl, rfl⟩) fun _ _ => ⟨rfl, rfl⟩

theorem prompt_queueing (w : World) (issuer : Issuer) (d : Nat) (e : Event) :
    w.Prompt s (w.queueing issuer d e) :=
  fun _ he => .inl he

/-- An event has been requested of a domain that does not queue it. -/
theorem requesting_holds {domain : Option Nat} (hd : w.Offers domain)
    (hk : ∀ d, domain = some d → (w.domain d).kind ≠ .cooperative) (issuer : Issuer) (e : Event)
    (hw : w.Counted s) : (flow s).Holds w .done (w.requesting issuer domain e) :=
  ⟨counted_requesting hw hd hk issuer e,
    (Flows.refl _).note rfl rfl (fun _ => ⟨rfl, rfl, rfl⟩) fun _ _ => ⟨rfl, rfl⟩,
    fun _ _ he => .inl he⟩

/-- The flow is no concern of what a store keeps for itself. -/
theorem aloof_modifyStore {r : Nat} {f : Store → Store} (hf : ∀ x, SameHouse x (f x))
    (hs : ∀ x, (f x).signal = x.signal) (hw : w.Sound) : w.Aloof s (w.modifyStore r f) := by
  have hq := w.quiet_modifyStore_of_same r fun x => ⟨(hf x).id, (hf x).arena, (hf x).affinity⟩
  refine hq.aloof hw ?_ (fun _ => rfl) ⟨[], by simp, rfl⟩
  rw [store_modifyStore]
  split
  · next h => rw [hs, h]
  · rfl

/-- An event that is not queued leaves the queues alone. -/
theorem signalling_accept {T : Nat → Prop} {d : Nat} (hk : (w.domain d).kind ≠ .cooperative)
    (e : Event) : w.Signalling T (w.modifyDomain d fun x => x.accept e) :=
  { w.quiet_sameTable d (fun x => x.sameTable_accept e), Signalling.refl w with
    table := fun r source => by
      rw [domain_modifyDomain]
      split
      · next hr => rw [(Domain.sameTable_accept _ e).subscribers, hr]
      · rfl
    counts := fun r source => by
      rw [domain_modifyDomain]
      split
      · next hr => rw [(Domain.sameTable_accept _ e).recorded, hr]
      · rfl
    books := fun r => by
      rw [domain_modifyDomain]
      split
      · next hr => rw [Domain.books_accept, if_neg hk, hr]
      · rfl }

/-- Nor is it of what domains record and count. -/
theorem aloof_table {r : Nat} {f : Domain → Domain} (hf : ∀ d : Domain, d.SameTable (f d))
    (hq : ∀ d : Domain, (f d).queue = d.queue) (hw : w.Sound) : w.Aloof s (w.modifyDomain r f) := by
  refine (w.quiet_sameTable r hf).aloof hw rfl (fun d => ?_) ⟨[], by simp, rfl⟩
  rw [domain_modifyDomain]
  split
  · next h => rw [hq, h]
  · rfl

theorem aloof_takeHold (subscribers : List Subscriber) (hw : w.Sound) :
    w.Aloof s (w.takeHold subscribers) :=
  (w.quiet_takeHold subscribers).aloof hw rfl (fun _ => rfl) ⟨[], by simp, rfl⟩

theorem aloof_letGo (domain : Nat) (held : List Subscriber) (hw : w.Sound) :
    w.Aloof s (w.letGo domain held) :=
  (w.quiet_letGo domain held).aloof hw rfl (fun _ => rfl)
    ⟨[_], by simp [Happening.concerns], rfl⟩

end World

namespace Engine

theorem hold_flow (subscribers : List Subscriber) : (hold subscribers).Keeps (flow s) :=
  fun _ => keepsAt_modify fun hw => (World.aloof_takeHold subscribers (World.Counted.sound hw)).holds hw

theorem countRun_flow (d : Nat) (stats : RunStats) :
    (modifyDomain d fun x => x.countRun stats).Keeps (flow s) :=
  fun _ => keepsAt_modify fun hw => (World.aloof_table (fun x => x.sameTable_countRun stats)
    (fun x => x.queue_countRun stats) (World.Counted.sound hw)).holds hw

variable {call : Nat → Engine Unit} (hc : ∀ r, (call r).Keeps (flow s)) {w : World}

include hc

/-- What an immediate domain is asked for it hands out, unless it drops it. -/
theorem deliver_flow {d : Nat} {e : Event} (hd : d < w.domains.next)
    (hk : (w.domain d).kind = .immediate)
    (ha : ∃ issuer, .requested issuer (some d) e ∈ w.history) (label : String) (i : Immediate) :
    (deliver call d label i e).KeepsAt (flow s) w := by
  have c := flow_signalling s
  have hs (b : Bool) := sameTable_keeps c d (fun x => x.sameTable_setDelivering b)
    fun x => x.books_setDelivering b
  refine keepsAt_get_bind ?_
  split
  · exact report_keeps c rfl w
  refine (report_keeps c rfl w).bind fun _ u _ hu => (hs true u).bind fun _ v _ hv => ?_
  refine KeepsAt.ensure (releasing_keepsAt ?_ fun hx =>
    (World.aloof_letGo d _ (World.Counted.sound hx)).holds hx) fun _ x _ _ _ => hs false x
  refine (callAny_keeps hc _ v).bind fun _ x _ hx => keepsAt_get_bind fun hwx => ?_
  have hg : w.Grows x := (hu.2.1.grows.trans hv.2.1.grows).trans hx.2.1.grows
  have hax : ∃ issuer, .requested issuer (some d) e ∈ x.history :=
    ha.imp fun _ hm => hg.history.subset hm
  have hwy := World.counted_handing hwx hax
  have hsubs (y : World) (hy : (x.handing d e).Grows y) (r : Nat)
      (hr : .store r ∈ x.liveSubscribers d e.source) : r < y.stores.next :=
    Nat.lt_of_lt_of_le (World.Sound.live_lt hwx.sound hr) hy.stores
  have hm : (hold (x.liveSubscribers d e.source) >>= fun _ =>
      deliverAtOnce call e (x.liveSubscribers d e.source)).Yields s
        (fun a => if e = a then (x.liveSubscribers d e.source).count (.store s) else 0)
        (fun _ _ => 0) (fun _ y => (x.handing d e).Prompt s y) (x.handing d e) := by
    refine (((hold_flow _ _).yields hwy).bind fun _ y hy hg hp =>
      (deliverAtOnce_yields hc e _ hy (hsubs y hg)).mono (fun _ => rfl) (fun _ _ => rfl)
        fun _ z hg' hz => hp.trans hg' hz).mono (fun a => ?_) (fun _ _ => rfl) fun _ _ _ h => h
    exact Nat.zero_add _
  -- an immediate domain takes nothing first, so nothing is due
  have hall : Engine.Yields _ s (fun _ => 0) (fun _ _ => 0) _ x :=
    handing_yields hm (fun _ => (Nat.add_zero _).symm) (fun r a hr => ?_) hwx hax
  · exact hall.keepsAt hwx
  · refine if_neg ?_
    rintro ⟨rfl, -⟩
    exact hr ((hg.kind hd).trans hk)

/-- Whatever it is that a domain does about events, a request keeps the flow. -/
theorem trigger_flow (issuer : Issuer) {domain : Option Nat} (hd : w.Offers domain) (e : Event) :
    (trigger call issuer domain e).KeepsAt (flow s) w := by
  have c := flow_signalling s
  cases domain with
  | none =>
    refine keepsAt_modify_bind (World.requesting_holds hd (by simp) issuer e) fun _ => ?_
    exact (remark_keeps c rfl _).bind fun _ v _ _ => keeps_pure _ v
  | some r =>
    -- where the event is not queued, it is requested first and then passed on
    have hpass {m : Engine Bool} (hk : (w.domain r).kind ≠ .cooperative)
        (hm : m.KeepsAt (flow s) (w.requesting issuer (some r) e))
        (he : trigger call issuer (some r) e w = m (w.requesting issuer (some r) e)) :
        (trigger call issuer (some r) e).KeepsAt (flow s) w := by
      have hnote := World.requesting_holds (s := s) hd (by rintro d ⟨⟩; exact hk) issuer e
      exact (keepsAt_modify_bind (g := fun _ => m) hnote fun _ => hm).congr he
    have he := trigger_apply call issuer r e w
    cases hm : (w.domain r).mode with
    | recording x =>
      have hk : (w.domain r).kind ≠ .cooperative := by simp [Domain.kind, hm]
      rw [hm] at he
      have ha := World.signalling_accept (T := (· ≠ s)) (w := w.requesting issuer (some r) e) hk e
      exact hpass hk (keepsAt_modify_bind (c.signalling ha) fun _ => keeps_pure _ _) he
    | cooperative x =>
      have hk : (w.domain r).kind = .cooperative := by simp [Domain.kind, hm]
      rw [hm] at he
      exact keepsAt_of_eq he fun hw => ⟨World.counted_queueing hw (hd r rfl) hk issuer e,
        w.flows_queueing issuer r e, fun _ => w.prompt_queueing issuer r e⟩
    | immediate x =>
      have hk : (w.domain r).kind = .immediate := by simp [Domain.kind, hm]
      rw [hm] at he
      have hv := deliver_flow (w := w.requesting issuer (some r) e) hc (hd r rfl) hk
        ⟨issuer, List.mem_cons_self⟩ (w.domain r).label x
      exact hpass (by rw [hk]; decide) (hv.bind fun _ v _ _ => keeps_pure _ v) he

theorem triggerStore_flow {r : Nat} : (triggerStore call r).KeepsAt (flow s) w := by
  have hf {f : Store → Store} (h : ∀ x, World.SameHouse x (f x)) (hg : ∀ x, (f x).signal = x.signal)
      (v : World) : (modify (World.modifyStore r f)).KeepsAt (flow s) v :=
    keepsAt_modify fun hv => (World.aloof_modifyStore h hg hv.sound).holds hv
  refine (hf ?_ ?_ w).bind fun _ v hv h =>
    keepsAt_get_bind (KeepsAt.ensure ?_ fun _ u _ _ _ => hf ?_ ?_ u)
  · exact fun _ => ⟨rfl, rfl, rfl, rfl, rfl, rfl, rfl, rfl⟩
  · exact fun _ => rfl
  · exact trigger_flow hc _ (fun d hd => h.1.sound.storeAffinities hd) _
  · exact fun _ => ⟨rfl, rfl, rfl, rfl, rfl, rfl, rfl, rfl⟩
  · exact fun _ => rfl

/-- Each event is handed out when its turn comes. -/
theorem deliverAll_yields {d : Nat} (events : List Event) : ∀ {p w}, w.Counted s →
    (∀ e ∈ events, ∃ issuer, .requested issuer (some d) e ∈ w.history) →
    (deliverAll call d p events).Yields s (fun _ => 0) (fun r a => if d = r then events.count a else 0)
      (fun p' v => (.store s ∈ p'.woken ∨ w.Prompt s v) ∧ (∀ x ∈ p.woken, x ∈ p'.woken) ∧
        ∀ r, .store r ∈ p'.woken → .store r ∈ p.woken ∨ r < v.stores.next) w := by
  have c := flow_signalling s
  induction events with
  | nil =>
    intro p w hw _
    refine (yields_pure hw ?_).mono (fun _ => rfl) (fun r a => by simp) fun _ _ _ h => h
    exact ⟨.inr fun _ he => .inl he, fun _ hx => hx, fun _ hx => .inl hx⟩
  | cons e events ih =>
    intro p w hw ha
    have hae := ha e List.mem_cons_self
    have hwy := World.counted_handing hw hae
    have hlive (u : World) (hg : (w.handing d e).Grows u) (r : Nat)
        (hr : .store r ∈ w.liveSubscribers d e.source) : r < u.stores.next :=
      Nat.lt_of_lt_of_le (World.Sound.live_lt hw.sound hr) hg.stores
    have hrest (p' : Progress) (u v : World) (hv : v.Counted s) (hg : (w.handing d e).Grows u)
        (hg' : u.Grows v) (hp : (w.handing d e).Prompt s u)
        (h : (.store s ∈ p'.woken ∨ u.Prompt s v) ∧ (∀ x ∈ p.woken, x ∈ p'.woken) ∧
          ∀ x ∈ p'.woken, x ∈ p.woken ∨ x ∈ w.liveSubscribers d e.source) :
        (deliverAll call d p' events).Yields s (fun _ => 0)
          (fun r a => if d = r then events.count a else 0)
          (fun p'' x => (.store s ∈ p''.woken ∨ (w.handing d e).Prompt s x) ∧
            (∀ x ∈ p.woken, x ∈ p''.woken) ∧
            ∀ r, .store r ∈ p''.woken → .store r ∈ p.woken ∨ r < x.stores.next) v := by
      have ha (x : Event) (hx : x ∈ events) : ∃ issuer, .requested issuer (some d) x ∈ v.history :=
        (ha x (List.mem_cons_of_mem e hx)).imp fun _ hm =>
          (hg.trans hg').history.subset (List.mem_cons_of_mem _ hm)
      refine (ih hv ha).mono (fun _ => rfl) (fun _ _ => rfl) fun p'' x hgx h' =>
        ⟨?_, fun y hy => h'.2.1 y (h.2.1 y hy), fun r hr => ?_⟩
      · rcases h'.1 with h1 | h1
        · exact .inl h1
        · rcases h.1 with h2 | h2
          · exact .inl (h'.2.1 _ h2)
          · exact .inr (hp.trans (hg'.trans hgx) (h2.trans hgx h1))
      · rcases h'.2.2 r hr with h1 | h1
        · exact (h.2.2 _ h1).imp_right (hlive x (hg.trans (hg'.trans hgx)) r)
        · exact .inr h1
    have hm := ((hold_flow (w.liveSubscribers d e.source) _).yields hwy).bind fun _ u hu hg hp =>
      (notifyAll_yields hc e _ (p := p) hu (hlive u hg)).bind fun p' v hv hg' hp' =>
        hrest p' u v hv hg hg' hp hp'
    refine handing_yields hm (fun a => ?_) (fun r a _ => ?_) hw hae
    · simp
    · by_cases hr : d = r <;> by_cases he : e = a <;> simp [hr, he]
      omega

/-- What comes of the events that a run has taken. -/
theorem deliveries_yield {d : Nat} {events : List Event} (hw : w.Counted s)
    (ha : ∀ e ∈ events, ∃ issuer, .requested issuer (some d) e ∈ w.history) :
    (releasing d do
      let p ← deliverAll call d {} events
      p.woken.forM (execute call)
      return ({ events := events.length, notified := p.notified, executed := p.woken.length } :
        RunStats)).Yields s (fun _ => 0) (fun r a => if d = r then events.count a else 0)
      (fun _ v => w.Prompt s v) w := by
  have hd : (do
      let p ← deliverAll call d {} events
      p.woken.forM (execute call)
      return ({ events := events.length, notified := p.notified, executed := p.woken.length } :
        RunStats) : Engine RunStats).Yields s (fun _ => 0)
        (fun r a => if d = r then events.count a else 0) (fun _ v => w.Prompt s v) w := by
    refine (deliverAll_yields hc _ hw ha).bind fun p v hv hg hp =>
      (executes_yield hc p.woken hv fun r hr => ?_).bind fun _ x hx hgx h => yields_pure hx ?_
    · exact (hp.2.2 r hr).resolve_left (by simp)
    · rcases hp.1 with h1 | h1
      · exact (h.2 h1).prompt
      · exact h1.trans hgx h.1
  exact hd.ensure (fun v hv => World.aloof_letGo d w.held hv) fun _ _ hv x hx =>
    (hv x hx).imp_right (List.mem_cons_of_mem _)

/-- A run of a cooperative domain hands out all that it takes, and serves whom it notified. -/
theorem runPending_flow {d : Nat} (hd : d < w.domains.next)
    (hk : (w.domain d).kind = .cooperative) : (runPending call d).KeepsAt (flow s) w := by
  intro hw
  have c := flow_signalling s
  have hwt := World.counted_taking hw hd
  have ha (e : Event) (he : e ∈ (w.domain d).queue) :
      ∃ issuer, .requested issuer (some d) e ∈ (w.taking d).history :=
    (World.Counted.requested_of_mem hw hk he).imp fun _ hm => List.mem_cons_of_mem _ hm
  have hrun : Engine.Yields (do
      if (w.domain d).queue.isEmpty then return {}
      let stats ← releasing d do
        let p ← deliverAll call d {} (w.domain d).queue
        p.woken.forM (execute call)
        return { events := (w.domain d).queue.length, notified := p.notified
                 executed := p.woken.length }
      modifyDomain d fun d => d.countRun stats
      notice (.runComplete (w.domain d).label stats)
      return stats : Engine RunStats) s (fun _ => 0)
        (fun r a => if d = r then (w.domain d).queue.count a else 0)
        (fun _ v => (w.taking d).Prompt s v) (w.taking d) := by
    split
    · next he =>
      rw [List.isEmpty_iff.mp he]
      exact (yields_pure hwt fun _ he => .inl he).mono (fun _ => rfl) (fun _ _ => by simp)
        fun _ _ _ h => h
    · have hend (stats : RunStats) : (do
          modifyDomain d fun d => d.countRun stats
          notice (.runComplete (w.domain d).label stats)
          return stats : Engine RunStats).Keeps (flow s) :=
        (countRun_flow d stats).bind fun _ => (remark_keeps c rfl).bind fun _ => keeps_pure _
      exact ((deliveries_yield hc hwt ha).bind fun stats v hv hg hp =>
        ((hend stats v).yields hv).mono (fun _ => rfl) (fun _ _ => rfl)
          fun _ x hgx h => hp.trans hgx h).mono (fun _ => rfl) (fun _ _ => rfl) fun _ _ _ h => h
  have hall : (runPending call d).Yields s (fun _ => 0) (fun _ _ => 0) (fun _ v => w.Prompt s v) w := by
    intro o v h
    obtain ⟨hv, hf, hp⟩ := hrun o v h
    refine ⟨hv, ?_, hp⟩
    let u : World := { w with history := .taken d (w.domain d).queue :: w.history }
    refine World.Flows.after_record (hf.of_before (w := u) ?_ rfl rfl) rfl rfl (fun _ => rfl)
      fun r a _ => ?_
    · exact (u.quiet_sameTable d Domain.sameTable_emptyQueue).grows
    · simp [Happening.deals, Happening.takes]
  exact hall.keepsAt hw

end Engine

end GuardedStore
