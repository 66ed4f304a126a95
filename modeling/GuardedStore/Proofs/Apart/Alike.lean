import GuardedStore.Proofs.Apart.Twins
import GuardedStore.Proofs.Flow.Record
import GuardedStore.Proofs.Run.Standing

/-!
Worlds that are alike on one side, and changes that spare the other.

Two worlds are alike on a side if all that is the side's is the same in both but for addresses: its
stores and what they hold on to, what its names stand for, its subscriptions, and the runs of its
hooks. Nothing is said of the other side. A change confined to the other side leaves alone just what
two worlds alike on the other side have to agree on, so they are alike on it still.
-/
namespace GuardedStore

/-- The runs of a store's model hooks, in order: which hook ran, and the count it was given. -/
def runsOf (s : Nat) (history : List Happening) : List (String × Nat) :=
  (hooksRun s history).map fun r => (r.1.label, r.2)

theorem runsOf_append (s : Nat) (newer h : List Happening) :
    runsOf s (newer ++ h) = runsOf s h ++ runsOf s newer := by
  unfold runsOf
  rw [hooksRun_append, List.map_append]

theorem runsOf_cons (s : Nat) (y : Happening) (h : List Happening) :
    runsOf s (y :: h) = runsOf s h ++ ((y.ran? s).map fun r => (r.1.label, r.2)).toList := by
  rw [← List.singleton_append, runsOf_append]
  unfold runsOf
  cases hy : y.ran? s <;> simp [hooksRun, hy]

/-- A happening other than the run of a hook. -/
def Happening.Mute (y : Happening) : Prop :=
  ∀ s, y.ran? s = none

theorem runsOf_of_mute {y : Happening} (hy : y.Mute) (s : Nat) (h : List Happening) :
    runsOf s (y :: h) = runsOf s h := by
  rw [runsOf_cons, hy s]
  exact List.append_nil _

namespace Domain

/-- What decides how a domain takes an event: its kind, the script it runs then, and whether it is
delivering one. -/
def gate (d : Domain) : Kind × Option Nat × Bool :=
  match d.mode with
  | .recording _ => (.recording, none, false)
  | .cooperative _ => (.cooperative, none, false)
  | .immediate i => (.immediate, i.script, i.delivering)

@[simp] theorem gate_subscribe (d : Domain) (source : Source) (s : Subscriber) :
    (d.subscribe source s).gate = d.gate := by
  unfold subscribe gate
  cases d.mode <;> rfl

@[simp] theorem gate_unsubscribe (d : Domain) (source : Source) :
    (d.unsubscribe source).gate = d.gate := by
  unfold unsubscribe gate
  cases d.mode <;> rfl

@[simp] theorem gate_accept (d : Domain) (e : Event) : (d.accept e).gate = d.gate := by
  unfold accept
  cases hm : d.mode <;> simp [gate, hm]

/-- The domain is the same for what the side subscribes to, and runs no script of its own. -/
structure Twin (c : Side) (d' d : Domain) : Prop where
  label : d'.label = d.label
  gate : d'.gate = d.gate
  script : d.gate.2.1 = none
  subscribers : ∀ {source}, c.fires source → d'.subscribers source = d.subscribers source
  own : ∀ {source x}, c.fires source → x ∈ d.subscribers source → ∃ s, x = .store s ∧ c.stores s

/-- Only what the side subscribes to has changed, and only events of the side's were queued. -/
structure Confined (c : Side) (d e : Domain) : Prop where
  label : e.label = d.label
  gate : e.gate = d.gate
  subscribers : ∀ {source}, c.fires source = false → e.subscribers source = d.subscribers source
  queue : ∃ events, (∀ x ∈ events, c.fires x.source) ∧ e.queue = d.queue ++ events

theorem Confined.refl (c : Side) (d : Domain) : Confined c d d :=
  ⟨rfl, rfl, fun _ => rfl, [], by simp, by simp⟩

theorem Confined.trans {c : Side} {d e f : Domain} (h : Confined c d e) (h' : Confined c e f) :
    Confined c d f where
  label := h'.label.trans h.label
  gate := h'.gate.trans h.gate
  subscribers hs := (h'.subscribers hs).trans (h.subscribers hs)
  queue := by
    obtain ⟨xs, hxs, hq⟩ := h.queue
    obtain ⟨ys, hys, hq'⟩ := h'.queue
    refine ⟨xs ++ ys, fun x hx => (List.mem_append.mp hx).elim (hxs x) (hys x), ?_⟩
    rw [hq', hq, List.append_assoc]

/-- What is the same for one side stays so where the other is spared. -/
theorem Twin.spared {b c : Side} (apart : c.Apart b) {d' d e' e : Domain} (h : Twin b d' d)
    (left : Confined c d' e') (right : Confined c d e) : Twin b e' e where
  label := by rw [left.label, right.label, h.label]
  gate := by rw [left.gate, right.gate, h.gate]
  script := by rw [right.gate, h.script]
  subscribers hs := by
    rw [left.subscribers (apart.fires hs), right.subscribers (apart.fires hs), h.subscribers hs]
  own hs hx := h.own hs (right.subscribers (apart.fires hs) ▸ hx)

/-- The events of the other side that are queued are the same. -/
theorem Confined.queue_other {b c : Side} (apart : c.Apart b) {d e : Domain} (h : Confined c d e) :
    e.queue.filter (b.fires ·.source) = d.queue.filter (b.fires ·.source) := by
  obtain ⟨events, hev, hq⟩ := h.queue
  have hnone : events.filter (b.fires ·.source) = [] := by
    refine List.filter_eq_nil_iff.mpr fun x hx hb => ?_
    have hc := apart.fires hb
    rw [hev x hx] at hc
    cases hc
  rw [hq, List.filter_append, hnone, List.append_nil]

end Domain

namespace Names

/-- Only what names of the side stand for has changed. -/
structure Confined (c : Side) (n m : Names) : Prop where
  domains : m.domains = n.domains
  flags : m.flags = n.flags
  stores : ∀ {x}, c.names x = false → m.stores.find? x = n.stores.find? x
  storeIds : m.storeIds = n.storeIds
  keys : ∀ {x}, c.names x = false → m.keys.find? x = n.keys.find? x
  aspects : ∀ {x}, c.names x = false → m.aspects.find? x = n.aspects.find? x
  chains : ∀ {x}, c.names x = false → m.chains.find? x = n.chains.find? x

theorem Confined.refl (c : Side) (n : Names) : Confined c n n :=
  ⟨rfl, rfl, fun _ => rfl, rfl, fun _ => rfl, fun _ => rfl, fun _ => rfl⟩

theorem Confined.trans {c : Side} {n m k : Names} (h : Confined c n m) (h' : Confined c m k) :
    Confined c n k where
  domains := h'.domains.trans h.domains
  flags := h'.flags.trans h.flags
  stores hx := (h'.stores hx).trans (h.stores hx)
  storeIds := h'.storeIds.trans h.storeIds
  keys hx := (h'.keys hx).trans (h.keys hx)
  aspects hx := (h'.aspects hx).trans (h.aspects hx)
  chains hx := (h'.chains hx).trans (h.chains hx)

theorem Twin.spared {b c : Side} (apart : c.Apart b) {t : Twins} {n' n m' m : Names}
    (h : n'.Twin t b n) (left : Confined c n' m') (right : Confined c n m)
    (foreign : ∀ x, b.foreign x → m'.keys.find? x = m.keys.find? x) : m'.Twin t b m := by
  have free {x : String} (hx : b.names x) := apart.names hx
  constructor
  · rw [left.domains, right.domains, h.domains]
  · rw [left.flags, right.flags, h.flags]
  · intro x hx
    rw [left.stores (free hx), right.stores (free hx), h.stores hx]
  · intro x s hx hs
    exact h.owned hx (right.stores (free hx) ▸ hs)
  · rw [left.storeIds, right.storeIds, h.storeIds]
  · rintro x (hx | hx)
    · rw [left.keys (free hx), right.keys (free hx), h.keys (.inl hx)]
    · exact foreign x hx
  · intro x k hx hk
    exact h.keyStores hx (right.keys (free hx) ▸ hk)
  · intro x hx
    rw [left.aspects (free hx), right.aspects (free hx)]
    exact h.aspects hx
  · intro x hx
    rw [left.chains (free hx), right.chains (free hx)]
    exact h.chains hx

end Names

/-- Addresses of items, aspects and routines. -/
structure Places where
  items : Nat → Prop
  aspects : Nat → Prop
  routines : Nat → Prop

namespace Twins

variable (t : Twins)

/-- What stands for something in the other world. -/
def lefts : Places :=
  ⟨fun i => ∃ j, t.items i j, fun i => ∃ j, t.aspects i j, fun i => ∃ j, t.routines i j⟩

/-- What something in the other world stands for. -/
def rights : Places :=
  ⟨fun j => ∃ i, t.items i j, fun j => ∃ i, t.aspects i j, fun j => ∃ i, t.routines i j⟩

/-- What was made in the world and is stood for by nothing. -/
def aside (w : World) : Places where
  items j := j < w.items.next ∧ ∀ i, ¬ t.items i j
  aspects j := j < w.aspects.next ∧ ∀ i, ¬ t.aspects i j
  routines j := j < w.routines.next ∧ ∀ i, ¬ t.routines i j

end Twins

namespace World

/-- What changed is the side's: the other side's stores, names and subscriptions are as they were,
and so is what lies at the given places. -/
structure Confined (c : Side) (p : Places) (u v : World) : Prop where
  grows : u.items.next ≤ v.items.next ∧ u.aspects.next ≤ v.aspects.next ∧
    u.routines.next ≤ v.routines.next ∧ u.tickets ≤ v.tickets
  items : ∀ {j}, p.items j → v.item j = u.item j
  aspects : ∀ {j}, p.aspects j → v.aspect j = u.aspect j
  routines : ∀ {j}, p.routines j → v.routines.get j = u.routines.get j
  stores : ∀ {s}, c.stores s = false → v.store s = u.store s
  domains : ∀ d, (u.domain d).Confined c (v.domain d)
  names : u.names.Confined c v.names
  held : ∀ {s}, c.stores s = false → (.store s ∈ v.held ↔ .store s ∈ u.held)
  depths : v.modelDepth = u.modelDepth ∧ v.triggerDepth = u.triggerDepth
  muted : v.muted → u.muted
  unwinding : v.unwinding = u.unwinding
  runs : ∀ {s}, c.stores s = false → runsOf s v.history = runsOf s u.history

/-- All that is the side's is the same in both worlds but for addresses. Where the first world is
`lone`, no event but the side's is queued in it. -/
structure Alike (c : Side) (lone : Bool) (t : Twins) (u' u : World) : Prop where
  itemLinks : Links t.items u'.items.next u.items.next
  aspectLinks : Links t.aspects u'.aspects.next u.aspects.next
  routineLinks : Links t.routines u'.routines.next u.routines.next
  ticketLinks : Links t.tickets (u'.tickets + 1) (u.tickets + 1)
  items : ∀ {i j}, t.items i j → (u'.item i).Twin t c (u.item j)
  aspects : ∀ {i j}, t.aspects i j → (u'.aspect i).Twin t (u.aspect j)
  routines : ∀ {i j}, t.routines i j → (u'.routines.get i).Twin c (u.routines.get j)
  stores : ∀ {s}, c.stores s → (u'.store s).Twin t (u.store s)
  ids : ∀ {s}, c.stores s → (u.store s).id = .drawn s
  domains : ∀ d, (u'.domain d).Twin c (u.domain d)
  queues : lone → ∀ d, (u'.domain d).queue = (u.domain d).queue.filter (c.fires ·.source)
  names : u'.names.Twin t c u.names
  held : ∀ {s}, c.stores s → (.store s ∈ u'.held ↔ .store s ∈ u.held)
  depths : u'.modelDepth = u.modelDepth ∧ u'.triggerDepth = u.triggerDepth
  muted : u'.muted = u.muted
  calm : u'.unwinding = false ∧ u.unwinding = false
  runs : ∀ {s}, c.stores s → runsOf s u'.history = runsOf s u.history

namespace Confined

variable {c : Side} {p : Places} {u v w : World}

theorem refl (c : Side) (p : Places) (u : World) : Confined c p u u where
  grows := ⟨Nat.le_refl _, Nat.le_refl _, Nat.le_refl _, Nat.le_refl _⟩
  items _ := rfl
  aspects _ := rfl
  routines _ := rfl
  stores _ := rfl
  domains _ := .refl c _
  names := .refl c _
  held _ := .rfl
  depths := ⟨rfl, rfl⟩
  muted := id
  unwinding := rfl
  runs _ := rfl

theorem trans (h : Confined c p u v) (h' : Confined c p v w) : Confined c p u w where
  grows := ⟨Nat.le_trans h.grows.1 h'.grows.1, Nat.le_trans h.grows.2.1 h'.grows.2.1,
    Nat.le_trans h.grows.2.2.1 h'.grows.2.2.1, Nat.le_trans h.grows.2.2.2 h'.grows.2.2.2⟩
  items hj := (h'.items hj).trans (h.items hj)
  aspects hj := (h'.aspects hj).trans (h.aspects hj)
  routines hj := (h'.routines hj).trans (h.routines hj)
  stores hs := (h'.stores hs).trans (h.stores hs)
  domains d := (h.domains d).trans (h'.domains d)
  names := h.names.trans h'.names
  held hs := (h'.held hs).trans (h.held hs)
  depths := ⟨h'.depths.1.trans h.depths.1, h'.depths.2.trans h.depths.2⟩
  muted hm := h.muted (h'.muted hm)
  unwinding := h'.unwinding.trans h.unwinding
  runs hs := (h'.runs hs).trans (h.runs hs)

theorem anti {q : Places} (h : Confined c p u v) (hi : ∀ {j}, q.items j → p.items j)
    (ha : ∀ {j}, q.aspects j → p.aspects j) (hr : ∀ {j}, q.routines j → p.routines j) :
    Confined c q u v :=
  { h with
    items := fun hj => h.items (hi hj)
    aspects := fun hj => h.aspects (ha hj)
    routines := fun hj => h.routines (hr hj) }

end Confined

/-- Worlds alike on the one side stay so where the other side changes them. -/
theorem Alike.spared {b c : Side} (apart : c.Apart b) {lone : Bool} {t : Twins} {u' u v' v : World}
    (h : Alike b lone t u' u) (left : Confined c t.lefts u' v')
    (right : Confined c t.rights u v) (audible : u.muted = false)
    (foreign : ∀ x, b.foreign x → v'.names.keys.find? x = v.names.keys.find? x)
    (queues : lone → ∀ d, (v'.domain d).queue =
      (v.domain d).queue.filter (b.fires ·.source)) : Alike b lone t v' v := by
  have free {s : Nat} (hs : b.stores s) := apart.stores hs
  constructor
  · exact h.itemLinks.mono left.grows.1 right.grows.1
  · exact h.aspectLinks.mono left.grows.2.1 right.grows.2.1
  · exact h.routineLinks.mono left.grows.2.2.1 right.grows.2.2.1
  · exact h.ticketLinks.mono (Nat.succ_le_succ left.grows.2.2.2)
      (Nat.succ_le_succ right.grows.2.2.2)
  · intro i j hij
    rw [left.items ⟨j, hij⟩, right.items ⟨i, hij⟩]
    exact h.items hij
  · intro i j hij
    rw [left.aspects ⟨j, hij⟩, right.aspects ⟨i, hij⟩]
    exact h.aspects hij
  · intro i j hij
    rw [left.routines ⟨j, hij⟩, right.routines ⟨i, hij⟩]
    exact h.routines hij
  · intro s hs
    rw [left.stores (free hs), right.stores (free hs)]
    exact h.stores hs
  · intro s hs
    rw [right.stores (free hs), h.ids hs]
  · exact fun d => (h.domains d).spared apart (left.domains d) (right.domains d)
  · exact queues
  · exact h.names.spared apart left.names right.names foreign
  · intro s hs
    exact (left.held (free hs)).trans ((h.held hs).trans (right.held (free hs)).symm)
  · rw [left.depths.1, left.depths.2, right.depths.1, right.depths.2]
    exact h.depths
  · have hv' : v'.muted = false := by
      by_contra hm
      have hu := left.muted (by simpa using hm)
      rw [h.muted, audible] at hu
      cases hu
    have hv : v.muted = false := by
      by_contra hm
      have hu := right.muted (by simpa using hm)
      rw [audible] at hu
      cases hu
    rw [hv', hv]
  · rw [left.unwinding, right.unwinding]
    exact h.calm
  · intro s hs
    rw [left.runs (free hs), right.runs (free hs), h.runs hs]

end World

end GuardedStore
