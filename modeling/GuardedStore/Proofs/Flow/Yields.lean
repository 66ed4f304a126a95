import GuardedStore.Proofs.Flow.Aside

/-!
Parts of a delivery.

A computation that is a part of a delivery may signal what was handed out before it began, and hand
out what was taken before. What it yields says how much of each; put together, the parts of a
delivery leave nothing owed and nothing due.
-/
namespace GuardedStore

variable {s : Nat}

theorem tally_executes (s : Nat) (h : List Happening) :
    tally (Happening.executes s) h = (executed s h).length := by
  induction h with
  | nil => rfl
  | cons y h ih =>
    rw [tally_cons, ih, executed, executed, List.reverse_cons, List.filterMap_append]
    cases y with
    | executing t n hooks =>
      by_cases ht : t = s <;> simp [Happening.executes, Happening.execution?, ht, Nat.add_comm]
    | _ => simp [Happening.executes, Happening.execution?]

namespace World

variable {w w' : World}

/-- Whatever waits for an execution came from somebody who is not a domain. -/
def Served (s : Nat) (w : World) : Prop :=
  ∀ e ∈ waiting s w.history, .prompted s e ∈ w.history

theorem Served.prompt (h : w'.Served s) : w.Prompt s w' :=
  fun e he => .inr (h e he)

theorem Served.after (h : w.Served s) (hg : w.Grows w') (hp : w.Prompt s w') : w'.Served s := by
  intro e he
  rcases hp e he with he | he
  · exact hg.history.subset (h e he)
  · exact he

theorem Quiet.aloof (h : w.Quiet w') (hw : w.Sound)
    (hs : (w'.store s).signal = (w.store s).signal)
    (hq : ∀ d, (w'.domain d).queue = (w.domain d).queue)
    (hh : ∃ newer, (∀ y ∈ newer, y.concerns s = false) ∧ w'.history = newer ++ w.history) :
    w.Aloof s w' where
  grows := h.grows
  sound := h.sound hw
  signal := hs
  queue := hq
  kind _ := h.kind _
  history := hh

theorem store_modifySignal (w : World) (r t : Nat) (f : Signal → Signal) :
    ((w.modifySignal r f).store t).signal =
      if t = r then f (w.store r).signal else (w.store t).signal := by
  rw [modifySignal, store_modifyStore]
  split <;> rfl

/-- The signals of other stores are no concern of the flow. -/
theorem Signalling.aloof (h : w.Signalling (· ≠ s) w') (hw : w.Sound) : w.Aloof s w' := by
  obtain ⟨notes, hn, hh⟩ := h.notes
  refine h.toQuiet.aloof hw (by rw [h.elsewhere s (by simp)]) h.queue ⟨notes, fun y hy => ?_, hh⟩
  replace hn := hn y hy
  cases y <;> simp_all [Happening.ofSignals, Happening.concerns, Happening.inTrace]

/-- Neither a store nor a domain was made. -/
structure Still (w w' : World) : Prop where
  grows : w.Grows w'
  sound : w.Sound → w'.Sound
  stores : w'.stores.next = w.stores.next
  domains : w'.domains.next = w.domains.next
  kind : ∀ d, (w'.domain d).kind = (w.domain d).kind

theorem Quiet.still (h : w.Quiet w') : w.Still w' where
  grows := h.grows
  sound := h.sound
  stores := h.stores
  domains := h.domains
  kind := h.kind

theorem still_record (w : World) (y : Happening) : w.Still { w with history := y :: w.history } where
  grows := { Grows.refl w with history := ⟨[y], rfl⟩ }
  sound hw := { hw with names := hw.names.mono (Nat.le_refl _) (Nat.le_refl _) (Nat.le_refl _) }
  stores := rfl
  domains := rfl
  kind _ := rfl

theorem aloof_record {y : Happening} (hc : y.concerns s = false) (hw : w.Sound) :
    w.Aloof s { w with history := y :: w.history } :=
  aloof_of_same (still_record w y).grows ((still_record w y).sound hw) rfl rfl
    ⟨[y], by simpa using hc, rfl⟩

/-- What the store's signal and a few more happenings have to say for the world to stay counted. -/
theorem Counted.resignal (hw : w.Counted s) (newer : List Happening) (h : w.Still w')
    (unbuilt : w.stores.next ≤ s → (w'.store s).signal = {})
    (hq : ∀ d, (w'.domain d).queue = (w.domain d).queue) (hh : w'.history = newer ++ w.history)
    (hn : ∀ y ∈ newer, ∀ d e, y.requests d e = 0 ∧ y.takes d e = 0 ∧ y.deals d e = 0)
    (pending : (w'.store s).signal.pending = (waiting s w'.history).length)
    (triggered : (w'.store s).signal.triggered = true ↔ 0 < (w'.store s).signal.pending)
    (hooks : (w'.store s).signal.hooks = registered s w'.history)
    (groups : (executed s w'.history).map (·.1) =
      ((executions s w'.history).map List.length).reverse)
    (listed : Listed s w'.history)
    (positive : ∀ n hooks, .executing s n hooks ∈ newer → 1 ≤ n) : w'.Counted s := by
  have hreq (d : Nat) (e : Event) : tally (Happening.requests d e) w'.history =
      tally (Happening.requests d e) w.history := by
    rw [hh, tally_append, tally_eq_zero fun y hy => (hn y hy d e).1, Nat.zero_add]
  have htak (d : Nat) (e : Event) : tally (Happening.takes d e) w'.history =
      tally (Happening.takes d e) w.history := by
    rw [hh, tally_append, tally_eq_zero fun y hy => (hn y hy d e).2.1, Nat.zero_add]
  exact {
    sound := h.sound hw.sound
    pending := pending
    triggered := triggered
    hooks := hooks
    groups := groups
    listed := listed
    positive := fun {n hooks} hm => by
      rw [hh] at hm
      rcases List.mem_append.mp hm with hm | hm
      · exact positive n hooks hm
      · exact hw.positive hm
    queue := fun {d} e hk => by
      rw [hreq, htak, hq]
      exact hw.queue e (by rwa [← h.kind])
    unmade := fun {d} hd => by
      obtain ⟨hk, hq', ht⟩ := hw.unmade (h.domains ▸ hd)
      exact ⟨(h.kind d).trans hk, (hq d).trans hq', fun e => by rw [hreq, htak]; exact ht e⟩
    unbuilt := fun hle => unbuilt (h.stores ▸ hle)
    asked := by
      rw [hh]
      exact hw.asked.append fun y hy d e => (hn y hy d e).2.2 }

/-- Happenings that concern no signal, with the queues changed to match. -/
theorem Counted.requeue (hw : w.Counted s) (newer : List Happening) (h : w.Still w')
    (hs : (w'.store s).signal = (w.store s).signal) (hh : w'.history = newer ++ w.history)
    (hn : ∀ y ∈ newer, y.resignals s = false)
    (hq : ∀ d e, (w.domain d).kind = .cooperative →
      tally (Happening.requests d e) newer + (w.domain d).queue.count e =
        tally (Happening.takes d e) newer + (w'.domain d).queue.count e)
    (hu : ∀ d, w.domains.next ≤ d → (w'.domain d).queue = (w.domain d).queue ∧
      ∀ e, tally (Happening.requests d e) newer = 0 ∧ tally (Happening.takes d e) newer = 0)
    (ha : Asked (newer ++ w.history)) : w'.Counted s := by
  have hsame : SameSignal s w.history w'.history := hh ▸ sameSignal_append hn w.history
  exact {
    sound := h.sound hw.sound
    pending := by rw [hs, hsame.waiting, hw.pending]
    triggered := by rw [hs, hw.triggered]
    hooks := by rw [hs, hsame.registered, hw.hooks]
    groups := by rw [hsame.executed, hsame.executions, hw.groups]
    listed := hsame.listed hw.listed
    positive := fun {n hooks} hm => by
      rw [hh] at hm
      rcases List.mem_append.mp hm with hm | hm
      · have hx := hn _ hm
        simp [Happening.resignals] at hx
      · exact hw.positive hm
    queue := fun {d} e hk => by
      rw [h.kind] at hk
      have := hq d e hk
      have := hw.queue e hk
      rw [hh, tally_append, tally_append]
      omega
    unmade := fun {d} hd => by
      rw [h.domains] at hd
      obtain ⟨hk, hq, ht⟩ := hw.unmade hd
      refine ⟨(h.kind d).trans hk, (hu d hd).1.trans hq, fun e => ?_⟩
      have := (hu d hd).2 e
      have := ht e
      rw [hh, tally_append, tally_append]
      omega
    unbuilt := fun hle => by
      rw [hs]
      exact hw.unbuilt (h.stores ▸ hle)
    asked := by
      rw [hh]
      exact ha }

/-- One more happening that neither waits for an execution nor is one. -/
theorem Counted.record {y : Happening} (hw : w.Counted s)
    (hn : ∀ d e, y.requests d e = 0 ∧ y.takes d e = 0)
    (hs : y.resignals s = false)
    (ha : ∀ {d e subs}, y = .handed d e subs → ∃ issuer, .requested issuer (some d) e ∈ w.history) :
    World.Counted s { w with history := y :: w.history } := by
  refine hw.requeue [y] (still_record w y) rfl rfl (by simpa using hs)
    (fun d e _ => ?_) (fun d _ => ⟨rfl, fun e => ?_⟩) (hw.asked.cons ha)
  · rw [tally_cons, tally_cons, (hn d e).1, (hn d e).2]
    rfl
  · rw [tally_cons, tally_cons, (hn d e).1, (hn d e).2]
    exact ⟨rfl, rfl⟩

end World

namespace Engine

variable {α β : Type} {owed owed' : Event → Nat} {due due' : Nat → Event → Nat} {w : World}
  {P : α → World → Prop} {Q : β → World → Prop}

/-- However the computation ends, the flow is in order but for what is owed and due, and a result is
as described. -/
def Yields (m : Engine α) (s : Nat) (owed : Event → Nat) (due : Nat → Event → Nat)
    (P : α → World → Prop) (w : World) : Prop :=
  ∀ o v, m w = (o, v) →
    v.Counted s ∧ w.Flows s owed due o.ending v ∧ ∀ a, o = .done a → P a v

theorem KeepsAt.yields {m : Engine α} (hm : m.KeepsAt (flow s) w) (hw : w.Counted s) :
    m.Yields s (fun _ => 0) (fun _ _ => 0) (fun _ v => w.Prompt s v) w := by
  intro o v h
  obtain ⟨hv, hf, hp⟩ := hm.holds hw h
  exact ⟨hv, hf, by rintro a rfl; exact hp rfl⟩

theorem Yields.keepsAt {m : Engine α}
    (hm : m.Yields s (fun _ => 0) (fun _ _ => 0) (fun _ v => w.Prompt s v) w) :
    m.KeepsAt (flow s) w := by
  intro _
  obtain ⟨hv, hf, hp⟩ := hm _ _ rfl
  refine ⟨hv, hf, fun he => ?_⟩
  cases ho : (m w).1 with
  | done a => exact hp a ho
  | panicked _ => rw [ho] at he; cases he
  | stuck => rw [ho] at he; cases he

theorem Yields.mono {m : Engine α} {P' : α → World → Prop} (hm : m.Yields s owed due P w)
    (ho : ∀ e, owed e = owed' e) (hd : ∀ d e, due d e = due' d e)
    (hP : ∀ a v, w.Grows v → P a v → P' a v) : m.Yields s owed' due' P' w := by
  obtain rfl : owed = owed' := funext ho
  obtain rfl : due = due' := funext fun d => funext (hd d)
  intro o v h
  obtain ⟨hv, hf, hp⟩ := hm o v h
  exact ⟨hv, hf, fun a ha => hP a v hf.grows (hp a ha)⟩

theorem yields_pure {a : α} (hw : w.Counted s) (hP : P a w) :
    (pure a : Engine α).Yields s (fun _ => 0) (fun _ _ => 0) P w := by
  rintro o v ⟨⟩
  exact ⟨hw, .refl w, by rintro b ⟨⟩; exact hP⟩

theorem Yields.bind {m : Engine α} {f : α → Engine β} (hm : m.Yields s owed due P w)
    (hf : ∀ a v, v.Counted s → w.Grows v → P a v → (f a).Yields s owed' due' Q v) :
    (m >>= f).Yields s (fun e => owed e + owed' e) (fun d e => due d e + due' d e) Q w := by
  intro o v h
  rw [bind_apply] at h
  rcases hu : m w with ⟨a | text | _, u⟩ <;> rw [hu] at h <;> obtain ⟨hk, hg, hp⟩ := hm _ _ hu
  · obtain ⟨hv, hg', hp'⟩ := hf a u hk hg.grows (hp a rfl) o v h
    exact ⟨hv, hg.trans hk hg', hp'⟩
  · cases h
    exact ⟨hk, ⟨hg.grows, hg.raised, fun he => (by cases he), hg.running⟩, fun _ ha => by cases ha⟩
  · cases h
    exact ⟨hk, ⟨hg.grows, hg.raised, fun he => (by cases he), hg.running⟩, fun _ ha => by cases ha⟩

/-- A change that the flow is no concern of may come after. -/
theorem Yields.ensure {m : Engine α} {f : World → World} (hm : m.Yields s owed due P w)
    (hf : ∀ v : World, v.Sound → v.Aloof s (f v)) (hP : ∀ a v, P a v → P a (f v)) :
    (ensure m (modify f)).Yields s owed due P w := by
  intro o v h
  unfold Engine.ensure at h
  rcases hu : m w with ⟨a | text | _, u⟩ <;> rw [hu] at h <;> obtain ⟨hk, hg, hp⟩ := hm _ _ hu
  · cases h
    have ha := hf u hk.sound
    exact ⟨ha.counted hk, hg.trans hk ha.flows, by rintro b ⟨⟩; exact hP a u (hp a rfl)⟩
  · cases h
    have ha := hf u hk.sound
    exact ⟨ha.counted hk, hg.trans hk ha.flows, fun _ hb => by cases hb⟩
  · cases h
    exact ⟨hk, hg, fun _ hb => by cases hb⟩

end Engine

theorem flow_signalling (s : Nat) : (flow s).Signalling (· ≠ s) where
  signalling h hw := (h.aloof (World.Counted.sound hw)).holds hw
  stuck := (flow_storekeeping s).stuck

end GuardedStore
