import GuardedStore.Proofs.Estate.Admitted
import GuardedStore.Proofs.Flow.Admitted
import GuardedStore.Proofs.Ledger.Writes

/-!
The balance of triggers.

Every trigger that concerns a store starts as a write of an item, as a trigger of the store itself,
or with somebody who lets the store know. It is counted by an execution, or it waits in the signal
or in a queue, unless what it comes from was no more when its turn came. For a store that stays with
one cooperative domain the two sides are equal whenever no step is being performed.
-/
namespace GuardedStore

namespace Happening

/-- The event requested of a domain. -/
def asked (d : Nat) : Happening → List Event
  | requested _ (some r) e => if r = d then [e] else []
  | _ => []

/-- The events that a run of a domain took. -/
def took (d : Nat) : Happening → List Event
  | taken r events => if r = d then events else []
  | _ => []

/-- The event that a domain handed out. -/
def dealt (d : Nat) : Happening → List Event
  | handed r e _ => if r = d then [e] else []
  | _ => []

/-- The event handed out, as often as it was handed to a store. -/
def handedTo (s : Nat) : Happening → List Event
  | handed _ e subscribers => List.replicate (subscribers.count (.store s)) e
  | _ => []

/-- The event that somebody who is not a domain let a store know of. -/
def promptedTo (s : Nat) : Happening → List Event
  | prompted t e => if t = s then [e] else []
  | _ => []

/-- The event that a store was notified of. -/
def signalledTo (s : Nat) : Happening → List Event
  | signalled t e => if t = s then [e] else []
  | _ => []

/-- Whether a trigger was requested by an item. -/
def byItem (i : Nat) : Happening → Nat
  | requested (.item j) _ _ => if j = i then 1 else 0
  | _ => 0

/-- Whether a trigger of a store was accepted by a domain. -/
def byStore (s : Nat) : Happening → Nat
  | requested (.store t) (some _) _ => if t = s then 1 else 0
  | _ => 0

/-- Whether a store is bound elsewhere, or somebody else unsubscribes a source of it or requests a
trigger in its name. -/
def unsettles (s d : Nat) : Happening → Bool
  | bound t a => t = s ∧ a ≠ some d
  | unsubscribed _ source => source.owner = .drawn s
  | requested .outsider _ e => e.source.owner = .drawn s
  | _ => false

variable (s d : Nat) (e : Event) (y : Happening)

theorem count_asked : (y.asked d).count e = y.requests d e := by
  cases y with
  | requested issuer a x =>
    cases a with
    | none => rfl
    | some r => by_cases hr : r = d <;> by_cases hx : x = e <;> simp [asked, requests, hr, hx]
  | _ => rfl

theorem count_took : (y.took d).count e = y.takes d e := by
  cases y with
  | taken r events => by_cases hr : r = d <;> simp [took, takes, hr]
  | _ => rfl

theorem count_dealt : (y.dealt d).count e = y.deals d e := by
  cases y with
  | handed r x _ =>
    by_cases hr : r = d <;> by_cases hx : x = e <;> simp [dealt, deals, hr, hx]
  | _ => rfl

theorem count_handedTo : (y.handedTo s).count e = y.hands s e := by
  cases y with
  | handed r x subs => by_cases hx : x = e <;> simp [handedTo, hands, hx, List.count_replicate]
  | _ => rfl

theorem count_promptedTo : (y.promptedTo s).count e = y.prompts s e := by
  cases y with
  | prompted t x =>
    by_cases ht : t = s <;> by_cases hx : x = e <;> simp [promptedTo, prompts, ht, hx]
  | _ => rfl

theorem count_signalledTo : (y.signalledTo s).count e = y.signals s e := by
  cases y with
  | signalled t x =>
    by_cases ht : t = s <;> by_cases hx : x = e <;> simp [signalledTo, signals, ht, hx]
  | _ => rfl

end Happening

theorem tally_byItem (i : Nat) (h : List Happening) :
    tally (Happening.byItem i) h = (requestedBy i h).length := by
  induction h with
  | nil => rfl
  | cons y h ih =>
    rw [tally_cons, ih, requestedBy_cons, List.length_append, Nat.add_comm]
    congr 1
    cases y with
    | requested issuer a e =>
      cases issuer with
      | item j => by_cases hj : j = i <;> simp [Happening.byItem, Happening.requestedBy?, hj]
      | _ => rfl
    | _ => rfl

/-- Each trigger was requested by one item at most. -/
theorem sum_byItem (l : List Nat) (i : Nat) (a : Option Nat) (e : Event) :
    (l.map fun j => Happening.byItem j (.requested (.item i) a e)).sum = l.count i := by
  induction l with
  | nil => rfl
  | cons j l ih =>
    rw [List.map_cons, List.sum_cons, ih, List.count_cons, Nat.add_comm]
    by_cases hj : i = j
    · simp [Happening.byItem, hj]
    · simp [Happening.byItem, hj, Ne.symm hj]

theorem sum_byItem_of_ne (l : List Nat) {y : Happening}
    (hy : ∀ i a e, y ≠ .requested (.item i) a e) :
    (l.map fun j => Happening.byItem j y).sum = 0 := by
  have hz (j : Nat) : Happening.byItem j y = 0 := by
    cases y with
    | requested issuer a e =>
      cases issuer with
      | item i => exact absurd rfl (hy i a e)
      | _ => rfl
    | _ => rfl
  simp [hz]

/-- How many events of a store were handed out when what they come from was no more. -/
def lapsed (s : Nat) : List Happening → Nat
  | [] => 0
  | .handed _ e _ :: older =>
    (if e.source.owner = .drawn s ∧ perished e.source older then 1 else 0) + lapsed s older
  | _ :: older => lapsed s older

/-- The events of a store among others. -/
def eventsOf (s : Nat) (events : List Event) : List Event :=
  events.filter fun e => e.source.owner = .drawn s

@[simp] theorem eventsOf_append (s : Nat) (l l' : List Event) :
    eventsOf s (l ++ l') = eventsOf s l ++ eventsOf s l' :=
  List.filter_append ..

/-- What a store was notified of waits for an execution or was counted by one. -/
theorem perm_signalled (s : Nat) (h : List Happening) :
    (h.flatMap (Happening.signalledTo s)).Perm (waiting s h ++ (executions s h).flatten) := by
  refine List.perm_iff_count.mpr fun e => ?_
  simp only [List.count_append, List.count_flatMap, Function.comp_def, Happening.count_signalledTo]
  exact tally_signals s e h

/-- The trigger counts of the executions of a store, in order. -/
def triggersCounted (s : Nat) (history : List Happening) : List Nat :=
  (executed s history).map (·.1)

namespace World

/-- The items that were ever made for a store. -/
def madeFor (w : World) (s : Nat) : List Nat :=
  (List.range w.items.next).filter fun i => (w.item i).descriptor.store = .drawn s

/-- How many writes were stored in the items that were ever made for a store. -/
def writesStored (w : World) (s : Nat) : Nat :=
  ((w.madeFor s).map fun i => (w.item i).writes).sum

/-- The triggers of a store and its items, and those it was let know of, are all accounted for by
the store and its domain. -/
structure Balances (w : World) (s d : Nat) : Prop where
  triggers : w.writesStored s + tally (Happening.byStore s) w.history +
      (w.history.flatMap (Happening.promptedTo s)).length =
    (triggersCounted s w.history).sum + (w.store s).signal.pending +
      (eventsOf s (w.domain d).queue).length + lapsed s w.history
  triggered : (w.store s).signal.triggered = true ↔ 0 < (w.store s).signal.pending
  /-- Every hook that an execution is for ran once, with the count of the execution. -/
  hooks : hooksRun s w.history =
    (executed s w.history).flatMap fun x => x.2.map fun hook => (hook, x.1)
  /-- An execution is for all hooks registered by then, and for at least one trigger. -/
  executing : ∀ {n hooks older}, .executing s n hooks :: older <:+ w.history →
    1 ≤ n ∧ hooks = registered s older
  executions : (w.store s).signal.executions = (executed s w.history).length

variable {w : World} {s d : Nat}

theorem mem_madeFor {i : Nat} : i ∈ w.madeFor s ↔ w.Owns s i := by
  simp [madeFor, Owns]

theorem nodup_madeFor (w : World) (s : Nat) : (w.madeFor s).Nodup :=
  List.nodup_range.filter _

/-- The store has been bound to a cooperative domain and to nothing else, and nobody else has had
anything to do with its sources. -/
structure Settles (w : World) (s d : Nat) : Prop where
  kind : (w.domain d).kind = .cooperative
  bound : .bound s (some d) ∈ w.history
  stays : ∀ y ∈ w.history, y.unsettles s d = false

theorem Settles.once (h : w.Settles s d) {a : Option Nat} (hb : .bound s a ∈ w.history) :
    a = some d := by
  simpa [Happening.unsettles] using h.stays _ hb

theorem Settles.undisturbed (h : w.Settles s d) (a : Option Nat) {source : Source}
    (ho : source.owner = .drawn s) : .unsubscribed a source ∉ w.history := fun hm => by
  simpa [Happening.unsettles, ho] using h.stays _ hm

theorem Settles.genuine (h : w.Settles s d) (a : Option Nat) {e : Event}
    (ho : e.source.owner = .drawn s) : .requested .outsider a e ∉ w.history := fun hm => by
  simpa [Happening.unsettles, ho] using h.stays _ hm

/-- Items and stores request in their own name, and where they are bound. -/
theorem Truthful.issued (ht : w.Truthful) (hs : w.Settles s d) {issuer : Issuer} {a : Option Nat}
    {e : Event} (hm : .requested issuer a e ∈ w.history) :
    (e.source.owner = .drawn s ∧ a = some d ∧
        (issuer = .store s ∨ ∃ i ∈ w.madeFor s, issuer = .item i)) ∨
      (e.source.owner ≠ .drawn s ∧ issuer ≠ .store s ∧ ∀ i ∈ w.madeFor s, issuer ≠ .item i) := by
  cases issuer with
  | outsider =>
    exact .inr ⟨fun ho => hs.genuine a ho hm, nofun, nofun⟩
  | store t =>
    obtain ⟨-, hsrc, hb⟩ := ht.byStore hm
    by_cases hts : t = s
    · subst hts
      exact .inl ⟨by rw [hsrc]; rfl, hs.once hb, .inl rfl⟩
    · refine .inr ⟨fun ho => ?_, by simpa using hts, nofun⟩
      rw [hsrc] at ho
      injection ho with ho
      exact hts ho
  | item i =>
    obtain ⟨t, hi, hsrc, hb⟩ := ht.byItem hm
    have ho : e.source.owner = .drawn t := by rw [hsrc]; exact hi.2
    by_cases hts : t = s
    · subst hts
      exact .inl ⟨ho, hs.once hb, .inr ⟨i, mem_madeFor.mpr hi, rfl⟩⟩
    · refine .inr ⟨fun ho' => hts ?_, nofun, fun j hj hij => hts ?_⟩
      · injection ho.symm.trans ho' 
      · cases hij
        injection hi.2.symm.trans (mem_madeFor.mp hj).2

/-- What the items and the store requested is what was requested of the domain in their name. -/
theorem Truthful.length_asked (ht : w.Truthful) (hl : w.InStep) (hs : w.Settles s d) :
    (eventsOf s (w.history.flatMap (Happening.asked d))).length =
      w.writesStored s + tally (Happening.byStore s) w.history := by
  have hitem : w.writesStored s =
      ((w.madeFor s).map fun i => tally (Happening.byItem i) w.history).sum := by
    refine congrArg List.sum (List.map_congr_left fun i hi => ?_)
    have hr := (hl.tallies (mem_madeFor.mp hi).1).requests
    rw [tally_byItem, hr, List.length_map, List.length_range']
  rw [hitem, ← tally_sum, ← tally_add, eventsOf, List.filter_flatMap, List.length_flatMap]
  refine tally_congr fun y hy => ?_
  by_cases hr : ∃ issuer a e, y = .requested issuer a e
  · obtain ⟨issuer, a, e, rfl⟩ := hr
    rcases ht.issued hs hy with ⟨ho, rfl, rfl | ⟨i, hi, rfl⟩⟩ | ⟨ho, hns, hni⟩
    · rw [sum_byItem_of_ne _ (by simp)]
      simp [Happening.asked, Happening.byStore, ho]
    · rw [sum_byItem, List.count_eq_one_of_mem (w.nodup_madeFor s) hi]
      simp [Happening.asked, Happening.byStore, ho]
    · have hz : ((w.madeFor s).map fun i => Happening.byItem i (.requested issuer a e)).sum = 0 := by
        cases issuer with
        | item i =>
          rw [sum_byItem]
          exact List.count_eq_zero.mpr fun hi => hni i hi rfl
        | _ => exact sum_byItem_of_ne _ (by simp)
      rw [hz]
      cases a with
      | none => cases issuer <;> simp [Happening.asked, Happening.byStore]
      | some r =>
        cases issuer <;> by_cases hrd : r = d <;>
          simp_all [Happening.asked, Happening.byStore]
  · rw [sum_byItem_of_ne _ fun i a e h => hr ⟨_, a, e, h⟩]
    cases y <;> first | rfl | exact absurd ⟨_, _, _, rfl⟩ hr

/-- What a domain handed out of the store's was handed to it once, unless it had lapsed. -/
theorem Truthful.length_handed (ht : w.Truthful) (ha : Asked w.history) (hs : w.Settles s d) :
    ∀ {h}, h <:+ w.history → (h.flatMap (Happening.handedTo s)).length + lapsed s h =
      (eventsOf s (h.flatMap (Happening.dealt d))).length := by
  intro h
  induction h with
  | nil => exact fun _ => rfl
  | cons y h ih =>
    intro hh
    replace ih := ih ((List.suffix_cons y h).trans hh)
    rw [List.flatMap_cons, List.flatMap_cons, eventsOf_append, List.length_append,
      List.length_append]
    cases y with
    | handed r e subs =>
      have hf := ht.handed hh
      simp only [Happening.handedTo, Happening.dealt, lapsed, List.length_replicate]
      by_cases ho : e.source.owner = .drawn s
      · -- the store was bound to the domain that the event was requested of
        obtain ⟨issuer, hm⟩ := ha r e subs h hh
        have hm' : .requested issuer (some r) e ∈ w.history :=
          ((List.suffix_cons _ h).trans hh).subset hm
        have hi : issuer ≠ .outsider := fun hi => hs.genuine _ ho (hi ▸ hm')
        have hr : r = d := by
          rcases ht.issued hs hm' with ⟨-, hr, -⟩ | ⟨hne, -⟩
          · exact Option.some.inj hr
          · exact absurd ho hne
        subst hr
        obtain ⟨b, hb⟩ := hf.told ho hi hm
        have hbd := hs.once (((List.suffix_cons _ h).trans hh).subset (bound_of_binding hb))
        have hu (a : Option Nat) : .unsubscribed a e.source ∉ h := fun hu =>
          hs.undisturbed a ho (((List.suffix_cons _ h).trans hh).subset hu)
        have hc := (hf.there ho hu (hbd ▸ hb)).2 (by rw [hs.kind]; decide) issuer _ hi hm
        have hone : eventsOf s (if r = r then [e] else []) = [e] := by simp [eventsOf, ho]
        rw [hc, hone, List.length_singleton]
        cases perished e.source h <;>
          simp only [ho, true_and, if_true, if_false, Bool.false_eq_true] <;> omega
      · have hc : subs.count (.store s) = 0 :=
          List.count_eq_zero.mpr fun hm => ho (hf.strangers hm)
        have hn : eventsOf s (if r = d then [e] else []) = [] := by
          split <;> simp [eventsOf, ho]
        rw [hc, hn, if_neg (by simp [ho])]
        simpa using ih
    | _ => simpa [Happening.handedTo, Happening.dealt, lapsed, eventsOf] using ih

/-- What was requested of a cooperative domain was taken by a run, or is queued. -/
theorem Counted.perm_asked (hw : w.Counted s) (hk : (w.domain d).kind = .cooperative) :
    (w.history.flatMap (Happening.asked d)).Perm
      (w.history.flatMap (Happening.took d) ++ (w.domain d).queue) := by
  refine List.perm_iff_count.mpr fun e => ?_
  simp only [List.count_append, List.count_flatMap, Function.comp_def, Happening.count_asked,
    Happening.count_took]
  exact hw.queue e hk

theorem Balanced.perm_dealt {owed : Event → Nat} {u : World} {newer : List Happening}
    (h : World.Balanced s owed (fun _ _ => 0) u w newer) (hk : (w.domain d).kind ≠ .immediate) :
    (newer.flatMap (Happening.dealt d)).Perm (newer.flatMap (Happening.took d)) := by
  refine List.perm_iff_count.mpr fun e => ?_
  simp only [List.count_flatMap, Function.comp_def, Happening.count_dealt, Happening.count_took]
  exact h.deals e hk

theorem Balanced.perm_signalled {due : Nat → Event → Nat} {u : World} {newer : List Happening}
    (h : World.Balanced s (fun _ => 0) due u w newer) :
    (newer.flatMap (Happening.signalledTo s)).Perm
      (newer.flatMap (Happening.handedTo s) ++ newer.flatMap (Happening.promptedTo s)) := by
  refine List.perm_iff_count.mpr fun e => ?_
  simp only [List.count_append, List.count_flatMap, Function.comp_def,
    Happening.count_signalledTo, Happening.count_handedTo, Happening.count_promptedTo]
  exact h.signals e

/-- The signal has counted what waits for it, and the executions what they took from it. -/
theorem Counted.length_signalled (hw : w.Counted s) :
    (w.history.flatMap (Happening.signalledTo s)).length =
      (w.store s).signal.pending + (triggersCounted s w.history).sum := by
  rw [(perm_signalled s w.history).length_eq, List.length_append, hw.pending, triggersCounted,
    hw.groups, List.sum_reverse, List.length_flatten]

end World

namespace Scenario

/-- A store that has stayed with one cooperative domain has its triggers balanced whenever no step
is being performed. -/
theorem settled_balances {depth : Nat} {steps : List Step} {w : World} {s d : Nat}
    (h : settled depth {} steps = some w) (hp : ¬ Panicked w.history) (hs : w.Settles s d) :
    w.Balances s d := by
  obtain ⟨hc, hb, -⟩ := settled_flow s h hp
  have ht := ((settled_estates h).1.2 hp).truthful
  have hl : w.InStep := reached_of_settled h ▸ reached_inStep (fun _ => false) depth steps
  refine ⟨?_, hc.triggered, hb.hooks, fun {n hooks older} hm => ⟨?_, ?_⟩, ?_⟩
  · have hasked := ht.length_asked hl hs
    have hhanded := ht.length_handed hc.asked hs (List.suffix_refl _)
    have hqueue := ((hc.perm_asked hs.kind).filter fun e => e.source.owner = .drawn s).length_eq
    have hdealt := ((hb.perm_dealt (d := d) (by rw [hs.kind]; decide)).filter
      fun e => e.source.owner = .drawn s).length_eq
    have hsignalled := hb.perm_signalled.length_eq
    have hcounted := hc.length_signalled
    rw [List.filter_append, List.length_append] at hqueue
    rw [List.length_append] at hsignalled
    unfold eventsOf at *
    omega
  · exact hc.positive (hm.subset List.mem_cons_self)
  · exact hc.listed _ _ _ hm
  · rw [hb.executions, tally_executes]
    exact Nat.zero_add _

/-- A hook writes an item, another item is destroyed before its event is handed out, and the store
is triggered and let know of an event. -/
def busyStore : List Step :=
  [.domain "d" "d" .cooperative,
    .store "s" (.builder [.affinity (some "d")]),
    .onExecute "s" "m" (some (Script.window 0 (some 1) [.write "k" none (.int 7)])),
    .create "s" "k" "n" .int64 (.int 0) none .none,
    .create "s" "l" "o" .int64 (.int 0) none .none,
    .destroy "l" none,
    .runPending "d",
    .storeTrigger "s",
    .onTrigger "s" (.store "s") 5]

theorem busyStore_balances :
    let w := reached (fun _ => false) maxDepth {} busyStore
    (settled maxDepth {} busyStore = some w ∧ ¬ Panicked w.history ∧ w.Settles 0 0) ∧
      w.Balances 0 0 ∧ w.writesStored 0 = 3 ∧ triggersCounted 0 w.history = [1] ∧
      (w.store 0).signal.pending = 1 ∧ (eventsOf 0 (w.domain 0).queue).length = 2 ∧
      lapsed 0 w.history = 1 := by
  have hs : settled maxDepth {} busyStore = some (reached (fun _ => false) maxDepth {} busyStore) :=
    settled_eq_some (by decide +kernel)
  have hp : ¬ Panicked (reached (fun _ => false) maxDepth {} busyStore).history := by
    decide +kernel
  have hd : (reached (fun _ => false) maxDepth {} busyStore).Settles 0 0 :=
    ⟨by decide +kernel, by decide +kernel, by decide +kernel⟩
  exact ⟨⟨hs, hp, hd⟩, settled_balances hs hp hd, by decide +kernel, by decide +kernel,
    by decide +kernel, by decide +kernel, by decide +kernel⟩

end Scenario

end GuardedStore
