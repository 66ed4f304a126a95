import GuardedStore.Proofs.Flow.Record
import GuardedStore.Proofs.Run.Making
import GuardedStore.Proofs.Run.Plain
import GuardedStore.Proofs.Run.Signalling
import GuardedStore.Proofs.Run.Storekeeping

/-!
The law of the flow of events to one store.

At every moment the store's signal counts the events that wait for its next execution, and what was
requested of a cooperative domain was taken by a run of it or is still queued. A computation that
ends without a panic hands out all that it takes, signals all that it hands out, and runs all that
it begins to execute.

A part of a delivery does some of this for another part, so the relation has two more parameters:
`owed` says how often an event is signalled that was handed out before, and `due` says how often an
event is handed out by a domain that took it before.
-/
namespace GuardedStore

namespace World

/-- The store's signal and the domains' queues are what the history says. -/
structure Counted (s : Nat) (w : World) : Prop where
  sound : w.Sound
  pending : (w.store s).signal.pending = (waiting s w.history).length
  triggered : (w.store s).signal.triggered = true ↔ 0 < (w.store s).signal.pending
  hooks : (w.store s).signal.hooks = registered s w.history
  groups : (executed s w.history).map (·.1) = ((executions s w.history).map List.length).reverse
  listed : Listed s w.history
  positive : ∀ {n hooks}, .executing s n hooks ∈ w.history → 1 ≤ n
  queue : ∀ {d} e, (w.domain d).kind = .cooperative →
    tally (Happening.requests d e) w.history =
      tally (Happening.takes d e) w.history + (w.domain d).queue.count e
  /-- What is not there yet has no part in the flow. -/
  unmade : ∀ {d}, w.domains.next ≤ d → (w.domain d).kind = .recording ∧ (w.domain d).queue = [] ∧
    ∀ e, tally (Happening.requests d e) w.history = 0 ∧ tally (Happening.takes d e) w.history = 0
  unbuilt : w.stores.next ≤ s → (w.store s).signal = {}
  asked : Asked w.history

/-- What a computation that ends without a panic adds to the flow. -/
structure Balanced (s : Nat) (owed : Event → Nat) (due : Nat → Event → Nat) (w w' : World)
    (newer : List Happening) : Prop where
  history : w'.history = newer ++ w.history
  signals : ∀ e, tally (Happening.signals s e) newer =
    tally (Happening.hands s e) newer + tally (Happening.prompts s e) newer + owed e
  deals : ∀ {d} e, (w'.domain d).kind ≠ .immediate →
    tally (Happening.deals d e) newer = tally (Happening.takes d e) newer + due d e
  hooks : hooksRun s newer = (executed s newer).flatMap fun x => x.2.map fun hook => (hook, x.1)
  executions : (w'.store s).signal.executions =
    (w.store s).signal.executions + tally (Happening.executes s) newer

/-- What becomes of the flow between `w` and `w'`. -/
structure Flows (s : Nat) (owed : Event → Nat) (due : Nat → Event → Nat) (w : World) (e : Ending)
    (w' : World) : Prop where
  grows : w.Grows w'
  raised : e = .panicked → ∃ newer text, w'.history = newer ++ w.history ∧ .raised text ∈ newer
  done : e = .done → ∃ newer, w.Balanced s owed due w' newer
  /-- A store does not execute while its hooks are running. -/
  running : e ≠ .stuck → (w.store s).signal.running = true →
    (w'.store s).signal.running = true ∧
      ∃ newer, w'.history = newer ++ w.history ∧ executed s newer = [] ∧ hooksRun s newer = []

/-- Whatever waits for an execution has waited before, or came from somebody who is not a domain. -/
def Prompt (s : Nat) (w w' : World) : Prop :=
  ∀ e ∈ waiting s w'.history, e ∈ waiting s w.history ∨ .prompted s e ∈ w'.history

theorem Prompt.trans {s : Nat} {u v w : World} (h : u.Prompt s v) (hg : v.Grows w)
    (h' : v.Prompt s w) : u.Prompt s w := by
  intro e he
  rcases h' e he with he | he
  · rcases h e he with he | he
    · exact .inl he
    · exact .inr (hg.history.subset he)
  · exact .inr he

variable {s : Nat} {owed owed' : Event → Nat} {due due' : Nat → Event → Nat} {u v w : World}

theorem Flows.refl (w : World) : w.Flows s (fun _ => 0) (fun _ _ => 0) .done w where
  grows := .refl w
  raised h := by cases h
  done _ := ⟨[], rfl, fun _ => rfl, fun _ _ => rfl, rfl, rfl⟩
  running _ h := ⟨h, [], rfl, rfl, rfl⟩

/-- A domain that is not immediate was none before either. -/
theorem Counted.kind_ne_immediate (hu : u.Counted s) (hg : u.Grows v) {d : Nat}
    (h : (v.domain d).kind ≠ .immediate) : (u.domain d).kind ≠ .immediate := by
  rcases Nat.lt_or_ge d u.domains.next with hlt | hle
  · rwa [← hg.kind hlt]
  · rw [(hu.unmade hle).1]
    decide

theorem Balanced.trans {n n' : List Happening} (h : u.Balanced s owed due v n)
    (h' : v.Balanced s owed' due' w n')
    (hk : ∀ {d}, (w.domain d).kind ≠ .immediate → (v.domain d).kind ≠ .immediate) :
    u.Balanced s (fun e => owed e + owed' e) (fun d e => due d e + due' d e) w (n' ++ n) where
  history := by rw [h'.history, h.history, List.append_assoc]
  signals e := by
    have := h.signals e
    have := h'.signals e
    simp only [tally_append]
    omega
  deals {d} e hd := by
    have := h.deals e (hk hd)
    have := h'.deals e hd
    simp only [tally_append]
    omega
  hooks := by rw [hooksRun_append, executed_append, h.hooks, h'.hooks, List.flatMap_append]
  executions := by
    rw [h'.executions, h.executions, tally_append]
    omega

theorem Flows.trans {d e : Ending} (hv : v.Counted s)
    (h : u.Flows s owed due d v) (h' : v.Flows s owed' due' e w) :
    u.Flows s (fun x => owed x + owed' x) (fun r x => due r x + due' r x) (d.andThen e) w where
  grows := h.grows.trans h'.grows
  raised he := by
    rcases Ending.andThen_eq_panicked he with he | he
    · obtain ⟨newer, text, hh, hr⟩ := h.raised he
      obtain ⟨later, hl⟩ := h'.grows.history
      exact ⟨later ++ newer, text, by rw [← hl, hh, List.append_assoc], by simp [hr]⟩
    · obtain ⟨newer, text, hh, hr⟩ := h'.raised he
      obtain ⟨older, hl⟩ := h.grows.history
      exact ⟨newer ++ older, text, by rw [hh, ← hl, List.append_assoc], by simp [hr]⟩
  done he := by
    obtain ⟨hd, he⟩ := Ending.andThen_eq_done he
    obtain ⟨n, hn⟩ := h.done hd
    obtain ⟨n', hn'⟩ := h'.done he
    exact ⟨n' ++ n, hn.trans hn' fun hk => hv.kind_ne_immediate h'.grows hk⟩
  running he hr := by
    obtain ⟨hd, he⟩ := Ending.ne_stuck_of_andThen he
    obtain ⟨hr, n, hn, hx, ha⟩ := h.running hd hr
    obtain ⟨hr, n', hn', hx', ha'⟩ := h'.running he hr
    refine ⟨hr, n' ++ n, by rw [hn', hn, List.append_assoc], ?_, ?_⟩
    · rw [executed_append, hx, hx', List.append_nil]
    · rw [hooksRun_append, ha, ha', List.append_nil]

/-- Nothing has changed that the flow is about. -/
structure Aloof (s : Nat) (w w' : World) : Prop where
  grows : w.Grows w'
  sound : w'.Sound
  signal : (w'.store s).signal = (w.store s).signal
  queue : ∀ d, (w'.domain d).queue = (w.domain d).queue
  kind : ∀ {d}, w'.domains.next ≤ d → (w'.domain d).kind = (w.domain d).kind
  history : ∃ newer, (∀ y ∈ newer, y.concerns s = false) ∧ w'.history = newer ++ w.history

theorem tally_of_aside {newer : List Happening} (hn : ∀ y ∈ newer, y.concerns s = false)
    {f : Happening → Nat} (hf : ∀ y, Weightless s y → f y = 0) (h : List Happening) :
    tally f (newer ++ h) = tally f h := by
  rw [tally_append, tally_eq_zero fun y hy => hf y (weightless_of_aside (hn y hy)), Nat.zero_add]

theorem Aloof.counted (h : w.Aloof s v) (hw : w.Counted s) : v.Counted s := by
  obtain ⟨newer, hn, hh⟩ := h.history
  have hsame := sameSignal_of_aside hn w.history
  have hreq (d : Nat) (e : Event) : tally (Happening.requests d e) v.history =
      tally (Happening.requests d e) w.history := by
    rw [hh, tally_of_aside hn fun _ hy => hy.requests d e]
  have htak (d : Nat) (e : Event) : tally (Happening.takes d e) v.history =
      tally (Happening.takes d e) w.history := by
    rw [hh, tally_of_aside hn fun _ hy => hy.takes d e]
  exact {
    sound := h.sound
    pending := by rw [h.signal, hh, hsame.waiting, hw.pending]
    triggered := by rw [h.signal, hw.triggered]
    hooks := by rw [h.signal, hh, hsame.registered, hw.hooks]
    groups := by rw [hh, hsame.executed, hw.groups, hsame.executions]
    listed := by
      rw [hh]
      exact hsame.listed hw.listed
    positive := fun {n hooks} hm => by
      rw [hh] at hm
      rcases List.mem_append.mp hm with hm | hm
      · have := hn _ hm
        simp [Happening.concerns] at this
      · exact hw.positive hm
    queue := fun {d} e hk => by
      rw [hreq, htak, h.queue]
      rcases Nat.lt_or_ge d w.domains.next with hlt | hle
      · exact hw.queue e (by rwa [← h.grows.kind hlt])
      · obtain ⟨-, hq, ht⟩ := hw.unmade hle
        rw [(ht e).1, (ht e).2, hq]
        rfl
    unmade := fun {d} hd => by
      obtain ⟨hk, hq, ht⟩ := hw.unmade (Nat.le_trans h.grows.domains hd)
      exact ⟨(h.kind hd).trans hk, (h.queue d).trans hq, fun e => by rw [hreq, htak]; exact ht e⟩
    unbuilt := fun hs => by
      rw [h.signal]
      exact hw.unbuilt (Nat.le_trans h.grows.stores hs)
    asked := by
      rw [hh]
      exact hw.asked.append fun y hy => (weightless_of_aside (hn y hy)).deals }

theorem Aloof.flows (h : w.Aloof s v) : w.Flows s (fun _ => 0) (fun _ _ => 0) .done v := by
  obtain ⟨newer, hn, hh⟩ := h.history
  have hz {f : Happening → Nat} (hf : ∀ y, Weightless s y → f y = 0) : tally f newer = 0 :=
    tally_eq_zero fun y hy => hf y (weightless_of_aside (hn y hy))
  exact {
    grows := h.grows
    raised := fun he => by cases he
    done := fun _ => ⟨newer, {
      history := hh
      signals := fun e => by
        rw [hz fun _ hy => hy.signals e, hz fun _ hy => hy.hands e, hz fun _ hy => hy.prompts e]
      deals := fun {d} e _ => by
        rw [hz fun _ hy => hy.deals d e, hz fun _ hy => hy.takes d e]
      hooks := by rw [hooksRun_eq_nil hn, executed_eq_nil hn]; rfl
      executions := by rw [h.signal, hz fun _ hy => hy.executes]; rfl }⟩
    running := fun _ hr => ⟨by rw [h.signal, hr], newer, hh, executed_eq_nil hn,
      hooksRun_eq_nil hn⟩ }

theorem Aloof.prompt (h : w.Aloof s v) : w.Prompt s v := by
  obtain ⟨newer, hn, hh⟩ := h.history
  intro e he
  rw [hh, (sameSignal_of_aside hn _).waiting] at he
  exact .inl he

end World

/-- The law of the flow of events to the store at an address. -/
def flow (s : Nat) : Law where
  inv := World.Counted s
  rel w e w' := w.Flows s (fun _ => 0) (fun _ _ => 0) e w' ∧ (e = .done → w.Prompt s w')
  refl _ := ⟨.refl _, fun _ _ he => .inl he⟩
  trans _ hv h _ h' := by
    refine ⟨h.1.trans hv h'.1, fun he => ?_⟩
    obtain ⟨hd, he⟩ := Ending.andThen_eq_done he
    exact (h.2 hd).trans h'.1.grows (h'.2 he)

theorem World.Aloof.holds {s : Nat} {w v : World} (h : w.Aloof s v) (hw : w.Counted s) :
    (flow s).Holds w .done v :=
  ⟨h.counted hw, h.flows, fun _ => h.prompt⟩

end GuardedStore
