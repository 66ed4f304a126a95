import GuardedStore.Proofs.Run.Law
import GuardedStore.World.Stores

/-!
What stands in a world: every address that the world mentions is that of something made before, and
what is fixed when a thing is made stays as it is.

`Sound` is the first half and `Grows` the second; the laws that computations keep build on both. A
change is `Quiet` if it concerns deliveries only: neither an item's cell, nor an aspect, nor a pass,
nor a name, nor a panic.
-/
namespace GuardedStore

namespace Domain

inductive Kind where
  | recording
  | cooperative
  | immediate
  deriving DecidableEq

def kind (d : Domain) : Kind :=
  match d.mode with
  | .recording _ => .recording
  | .cooperative _ => .cooperative
  | .immediate _ => .immediate

/-- A recording domain keeps no subscribers, so there is nobody to be added to. -/
theorem subscribers_subscribe (d : Domain) (source src : Source) (s : Subscriber) :
    (d.subscribe source s).subscribers src =
      if d.kind ≠ .recording ∧ src = source then d.subscribers src ++ [s]
      else d.subscribers src := by
  unfold subscribe subscribers kind
  cases hm : d.mode with
  | recording r => simp
  | cooperative c => by_cases h : src = source <;> simp [h, eq_comm]
  | immediate i => by_cases h : src = source <;> simp [h, eq_comm]

theorem subscribers_unsubscribe (d : Domain) (source src : Source) :
    (d.unsubscribe source).subscribers src =
      if src = source then [] else d.subscribers src := by
  have h (l : List (Source × Subscriber)) : (l.filter (·.1 ≠ source)).filter (·.1 = src) =
      if src = source then [] else l.filter (·.1 = src) := by
    rw [List.filter_filter]
    split
    · simp_all
    · apply List.filter_congr
      grind
  unfold unsubscribe subscribers
  cases d.mode with
  | recording r => simp
  | cooperative c =>
    simp only [h]
    split <;> rfl
  | immediate i =>
    simp only [h]
    split <;> rfl

/-- How often a domain that keeps no subscribers has been subscribed to a source. -/
def recorded (d : Domain) (source : Source) : Nat :=
  match d.mode with
  | .recording r => r.subscriptions.count source
  | _ => 0

theorem recorded_subscribe (d : Domain) (source src : Source) (s : Subscriber) :
    (d.subscribe source s).recorded src =
      if d.kind = .recording ∧ src = source then d.recorded src + 1 else d.recorded src := by
  unfold subscribe recorded kind
  cases hm : d.mode with
  | recording r =>
    by_cases h : src = source
    · simp [h]
    · simp [h, Ne.symm h]
  | cooperative c => simp
  | immediate i => simp

theorem recorded_unsubscribe (d : Domain) (source src : Source) :
    (d.unsubscribe source).recorded src = if src = source then 0 else d.recorded src := by
  have hc (l : List Source) :
      (l.filter (· ≠ source)).count src = if src = source then 0 else l.count src := by
    split
    · next h => simp [h, List.count_eq_zero]
    · next h => exact List.count_filter (by simp [h])
  unfold unsubscribe recorded
  cases d.mode with
  | recording r => exact hc _
  | cooperative c => simp
  | immediate i => simp

@[simp] theorem kind_subscribe (d : Domain) (source : Source) (s : Subscriber) :
    (d.subscribe source s).kind = d.kind := by
  unfold subscribe kind
  cases d.mode <;> rfl

@[simp] theorem kind_unsubscribe (d : Domain) (source : Source) :
    (d.unsubscribe source).kind = d.kind := by
  unfold unsubscribe kind
  cases d.mode <;> rfl

/-- The events that wait in a cooperative domain, and what it counts. -/
structure Books where
  queue : List Event := []
  received : Nat := 0
  runs : Nat := 0
  executions : Nat := 0
  deriving DecidableEq

/-- Only a cooperative domain keeps books. -/
def books (d : Domain) : Books :=
  match d.mode with
  | .cooperative c =>
    { queue := c.queue, received := c.received, runs := c.runs, executions := c.executions }
  | _ => {}

theorem books_of_recording {d : Domain} (h : d.kind = .recording) : d.books = {} := by
  unfold kind at h
  unfold books
  cases hm : d.mode <;> simp_all

theorem queue_books (d : Domain) : d.books.queue = d.queue := by
  unfold books queue
  cases d.mode <;> rfl

@[simp] theorem books_subscribe (d : Domain) (source : Source) (s : Subscriber) :
    (d.subscribe source s).books = d.books := by
  unfold subscribe books
  cases d.mode <;> rfl

@[simp] theorem books_unsubscribe (d : Domain) (source : Source) :
    (d.unsubscribe source).books = d.books := by
  unfold unsubscribe books
  cases d.mode <;> rfl

@[simp] theorem books_setDelivering (d : Domain) (b : Bool) :
    (d.setDelivering b).books = d.books := by
  unfold setDelivering books
  cases hm : d.mode <;> simp [hm]

/-- Only a cooperative domain has a queue to add to. -/
theorem books_accept (d : Domain) (e : Event) :
    (d.accept e).books =
      if d.kind = .cooperative then
        { d.books with queue := d.books.queue ++ [e], received := d.books.received + 1 }
      else d.books := by
  unfold accept books kind
  cases hm : d.mode <;> simp [hm]

theorem books_emptyQueue (d : Domain) : d.emptyQueue.books = { d.books with queue := [] } := by
  unfold emptyQueue books
  cases hm : d.mode <;> simp [hm]

@[simp] theorem queue_emptyQueue (d : Domain) : d.emptyQueue.queue = [] := by
  rw [← queue_books, books_emptyQueue]

theorem books_countRun (d : Domain) (stats : RunStats) :
    (d.countRun stats).books =
      if d.kind = .cooperative then
        { d.books with
          runs := d.books.runs + 1, executions := d.books.executions + stats.executed }
      else d.books := by
  unfold countRun books kind
  cases hm : d.mode <;> simp [hm]

theorem queue_countRun (d : Domain) (stats : RunStats) : (d.countRun stats).queue = d.queue := by
  rw [← queue_books, books_countRun, ← queue_books]
  split <;> rfl

@[simp] theorem books_clear (d : Domain) : d.clear.books = d.books := by
  unfold clear books
  cases hm : d.mode <;> simp [hm]

/-- The domain differs, if at all, in what it has accepted, delivered or counted. -/
structure SameTable (d d' : Domain) : Prop where
  kind : d'.kind = d.kind
  subscribers : ∀ source, d'.subscribers source = d.subscribers source
  recorded : ∀ source, d'.recorded source = d.recorded source

theorem SameTable.refl (d : Domain) : d.SameTable d :=
  ⟨rfl, fun _ => rfl, fun _ => rfl⟩

theorem sameTable_accept (d : Domain) (event : Event) : d.SameTable (d.accept event) := by
  unfold accept
  constructor <;> cases hm : d.mode <;> simp [kind, subscribers, recorded, hm]

theorem sameTable_clear (d : Domain) : d.SameTable d.clear := by
  unfold clear
  constructor <;> cases hm : d.mode <;> simp [kind, subscribers, recorded, hm]

theorem sameTable_emptyQueue (d : Domain) : d.SameTable d.emptyQueue := by
  unfold emptyQueue
  constructor <;> cases hm : d.mode <;> simp [kind, subscribers, recorded, hm]

theorem sameTable_countRun (d : Domain) (stats : RunStats) : d.SameTable (d.countRun stats) := by
  unfold countRun
  constructor <;> cases hm : d.mode <;> simp [kind, subscribers, recorded, hm]

theorem sameTable_setDelivering (d : Domain) (b : Bool) : d.SameTable (d.setDelivering b) := by
  unfold setDelivering
  constructor <;> cases hm : d.mode <;> simp [kind, subscribers, recorded, hm]

end Domain

namespace World

theorem item_modifyItem (w : World) (r i : Nat) (f : Item → Item) :
    (w.modifyItem r f).item i = if i = r then f (w.item r) else w.item i :=
  w.items.get_modify r i f

theorem aspect_setAspect (w : World) (r a : Nat) (x : Aspect Nat) :
    (w.setAspect r x).aspect a = if a = r then x else w.aspect a :=
  w.aspects.get_set r a x

theorem domain_modifyDomain (w : World) (r d : Nat) (f : Domain → Domain) :
    (w.modifyDomain r f).domain d = if d = r then f (w.domain r) else w.domain d :=
  w.domains.get_modify r d f

theorem store_modifyStore (w : World) (r s : Nat) (f : Store → Store) :
    (w.modifyStore r f).store s = if s = r then f (w.store r) else w.store s :=
  w.stores.get_modify r s f

/-- The subscriber is added to a source in the domain behind an affinity, if there is one. -/
def subscribing (affinity : Option Nat) (source : Source) (x : Subscriber) (w : World) : World :=
  match affinity with
  | some r => w.modifyDomain r fun d => d.subscribe source x
  | none => w

/-- All subscribers of a source are removed in the domain behind an affinity, if there is one. -/
def unsubscribing (affinity : Option Nat) (source : Source) (w : World) : World :=
  match affinity with
  | some r => w.modifyDomain r fun d => d.unsubscribe source
  | none => w

theorem subscribers_subscribing (w : World) (affinity : Option Nat) (source src : Source)
    (x : Subscriber) (d : Nat) :
    ((w.subscribing affinity source x).domain d).subscribers src =
      if affinity = some d ∧ (w.domain d).kind ≠ .recording ∧ src = source then
        (w.domain d).subscribers src ++ [x]
      else (w.domain d).subscribers src := by
  cases affinity with
  | none => simp [subscribing]
  | some r =>
    rw [subscribing, domain_modifyDomain]
    by_cases h : d = r
    · simp [h, Domain.subscribers_subscribe]
    · simp [h, Ne.symm h]

theorem subscribers_unsubscribing (w : World) (affinity : Option Nat) (source src : Source)
    (d : Nat) :
    ((w.unsubscribing affinity source).domain d).subscribers src =
      if affinity = some d ∧ src = source then [] else (w.domain d).subscribers src := by
  cases affinity with
  | none => simp [unsubscribing]
  | some r =>
    rw [unsubscribing, domain_modifyDomain]
    by_cases h : d = r
    · simp [h, Domain.subscribers_unsubscribe]
    · simp [h, Ne.symm h]

theorem recorded_subscribing (w : World) (affinity : Option Nat) (source src : Source)
    (x : Subscriber) (d : Nat) :
    ((w.subscribing affinity source x).domain d).recorded src =
      if affinity = some d ∧ (w.domain d).kind = .recording ∧ src = source then
        (w.domain d).recorded src + 1
      else (w.domain d).recorded src := by
  cases affinity with
  | none => simp [subscribing]
  | some r =>
    rw [subscribing, domain_modifyDomain]
    by_cases h : d = r
    · simp [h, Domain.recorded_subscribe]
    · simp [h, Ne.symm h]

theorem recorded_unsubscribing (w : World) (affinity : Option Nat) (source src : Source)
    (d : Nat) :
    ((w.unsubscribing affinity source).domain d).recorded src =
      if affinity = some d ∧ src = source then 0 else (w.domain d).recorded src := by
  cases affinity with
  | none => simp [unsubscribing]
  | some r =>
    rw [unsubscribing, domain_modifyDomain]
    by_cases h : d = r
    · simp [h, Domain.recorded_unsubscribe]
    · simp [h, Ne.symm h]

theorem books_modifyDomain {w : World} {r : Nat} {f : Domain → Domain}
    (hb : ∀ d, (f d).books = d.books) (d : Nat) :
    ((w.modifyDomain r f).domain d).books = (w.domain d).books := by
  rw [domain_modifyDomain]
  split
  · next h => rw [hb, h]
  · rfl

@[simp] theorem books_subscribing (w : World) (affinity : Option Nat) (source : Source)
    (x : Subscriber) (d : Nat) :
    ((w.subscribing affinity source x).domain d).books = (w.domain d).books := by
  cases affinity with
  | none => rfl
  | some r => exact books_modifyDomain (fun d => d.books_subscribe source x) d

@[simp] theorem books_unsubscribing (w : World) (affinity : Option Nat) (source : Source)
    (d : Nat) : ((w.unsubscribing affinity source).domain d).books = (w.domain d).books := by
  cases affinity with
  | none => rfl
  | some r => exact books_modifyDomain (fun d => d.books_unsubscribe source) d

theorem queue_of_books {w w' : World} (h : ∀ d, (w'.domain d).books = (w.domain d).books)
    (d : Nat) : (w'.domain d).queue = (w.domain d).queue := by
  rw [← Domain.queue_books, h, Domain.queue_books]

end World

theorem Engine.subscribe_apply (affinity : Option Nat) (source : Source) (x : Subscriber)
    (w : World) :
    Engine.subscribe affinity source x w = (.done (), w.subscribing affinity source x) := by
  cases affinity <;> rfl

theorem Engine.unsubscribe_apply (affinity : Option Nat) (source : Source) (w : World) :
    Engine.unsubscribe affinity source w = (.done (), w.unsubscribing affinity source) := by
  cases affinity <;> rfl

/-- Every address that a name leads to is that of something made before. -/
structure Names.Valid (n : Names) (w : World) : Prop where
  domains : ∀ {name d}, n.domains.find? name = some d → d < w.domains.next
  stores : ∀ {name s}, n.stores.find? name = some s → s < w.stores.next
  aspects : ∀ {name a}, n.aspects.find? name = some a → a < w.aspects.next
  chains : ∀ {name chain a}, n.chains.find? name = some chain → a ∈ chain → a < w.aspects.next
  passages : ∀ {name p a}, n.passages.find? name = some p → a ∈ p.entered → a < w.aspects.next

theorem Names.Valid.mono {n : Names} {w w' : World} (h : n.Valid w)
    (hd : w.domains.next ≤ w'.domains.next) (hs : w.stores.next ≤ w'.stores.next)
    (ha : w.aspects.next ≤ w'.aspects.next) : n.Valid w' where
  domains hn := Nat.lt_of_lt_of_le (h.domains hn) hd
  stores hn := Nat.lt_of_lt_of_le (h.stores hn) hs
  aspects hn := Nat.lt_of_lt_of_le (h.aspects hn) ha
  chains hn hm := Nat.lt_of_lt_of_le (h.chains hn hm) ha
  passages hn hm := Nat.lt_of_lt_of_le (h.passages hn hm) ha

/-- The aspect goes by a name, or is in a chain that does. -/
def Names.Calls (n : Names) (x : Nat) : Prop :=
  (∃ name, n.aspects.find? name = some x) ∨
    ∃ name chain, n.chains.find? name = some chain ∧ x ∈ chain

theorem Names.Valid.calls {n : Names} {w : World} {x : Nat} (h : n.Valid w) (hx : n.Calls x) :
    x < w.aspects.next := by
  obtain ⟨name, hx⟩ | ⟨name, chain, hc, hx⟩ := hx
  · exact h.aspects hx
  · exact h.chains hc hx

def Happening.isRaised : Happening → Bool
  | .raised _ => true
  | _ => false

/-- A panic was raised. -/
def Panicked (history : List Happening) : Prop :=
  ∃ text, .raised text ∈ history

instance (history : List Happening) : Decidable (Panicked history) :=
  decidable_of_iff (∃ h ∈ history, h.isRaised) <| by
    constructor
    · rintro ⟨h, hm, hr⟩
      cases h <;> first | exact ⟨_, hm⟩ | cases hr
    · rintro ⟨text, hm⟩
      exact ⟨_, hm, rfl⟩

theorem Panicked.mono {h newer : List Happening} (hp : Panicked h) : Panicked (newer ++ h) :=
  hp.imp fun _ ht => List.mem_append_right _ ht

namespace World

/-- The item was made for the store that was built as number `s`. -/
def Owns (w : World) (s i : Nat) : Prop :=
  i < w.items.next ∧ (w.item i).descriptor.store = .drawn s

/-- Every address in the world is that of something made before, and a store is known by the number
it was built as. -/
structure Sound (w : World) : Prop where
  ids : ∀ {s}, s < w.stores.next → (w.store s).id = .drawn s
  owners : ∀ {i}, i < w.items.next → ∃ s < w.stores.next, w.Owns s i
  arenas : ∀ {s i}, i ∈ (w.store s).arena.toList → w.Owns s i
  chains : ∀ {i a}, a ∈ (w.item i).chain → a < w.aspects.next
  storeAffinities : ∀ {s d}, (w.store s).affinity = some d → d < w.domains.next
  itemAffinities : ∀ {i d}, (w.item i).affinity = some d → d < w.domains.next
  subscribers : ∀ {d source s}, .store s ∈ (w.domain d).subscribers source → s < w.stores.next
  names : w.names.Valid w

/-- Nothing made before goes away, and what was fixed about it stays. -/
structure Grows (w w' : World) : Prop where
  items : w.items.next ≤ w'.items.next
  aspects : w.aspects.next ≤ w'.aspects.next
  domains : w.domains.next ≤ w'.domains.next
  stores : w.stores.next ≤ w'.stores.next
  tickets : w.tickets ≤ w'.tickets
  history : w.history <:+ w'.history
  descriptor : ∀ {i}, i < w.items.next → (w'.item i).descriptor = (w.item i).descriptor
  chain : ∀ {i}, i < w.items.next → (w'.item i).chain = (w.item i).chain
  id : ∀ {s}, s < w.stores.next → (w'.store s).id = (w.store s).id
  kind : ∀ {d}, d < w.domains.next → (w'.domain d).kind = (w.domain d).kind

theorem Owns.mono {w w' : World} {s i : Nat} (h : w.Owns s i) (hg : w.Grows w') : w'.Owns s i :=
  ⟨Nat.lt_of_lt_of_le h.1 hg.items, hg.descriptor h.1 ▸ h.2⟩

theorem Grows.refl (w : World) : w.Grows w := by
  constructor <;> simp

theorem Grows.trans {u v w : World} (h : u.Grows v) (h' : v.Grows w) : u.Grows w where
  items := Nat.le_trans h.items h'.items
  aspects := Nat.le_trans h.aspects h'.aspects
  domains := Nat.le_trans h.domains h'.domains
  stores := Nat.le_trans h.stores h'.stores
  tickets := Nat.le_trans h.tickets h'.tickets
  history := h.history.trans h'.history
  descriptor hi := (h'.descriptor (Nat.lt_of_lt_of_le hi h.items)).trans (h.descriptor hi)
  chain hi := (h'.chain (Nat.lt_of_lt_of_le hi h.items)).trans (h.chain hi)
  id hs := (h'.id (Nat.lt_of_lt_of_le hs h.stores)).trans (h.id hs)
  kind hd := (h'.kind (Nat.lt_of_lt_of_le hd h.domains)).trans (h.kind hd)

theorem Grows.panicked {w w' : World} (hg : w.Grows w') (h : Panicked w.history) :
    Panicked w'.history := by
  obtain ⟨newer, hn⟩ := hg.history
  exact hn ▸ h.mono

/-- The history alone has one more entry. -/
def mark (y : Happening) (w : World) : World :=
  { w with history := y :: w.history }

theorem sound_mark (y : Happening) {w : World} (hw : w.Sound) : (w.mark y).Sound :=
  { hw with
    names := hw.names.mono (Nat.le_refl _) (Nat.le_refl _) (Nat.le_refl _) }

theorem grows_mark (y : Happening) (w : World) : w.Grows (w.mark y) :=
  { Grows.refl w with history := ⟨[y], rfl⟩ }

end World

/-- Whether a happening concerns neither an item's cell, nor a pass, nor a panic. -/
def Happening.aside : Happening → Bool
  | .made .. | .began .. | .admitted .. | .abandoned .. | .stored .. | .concluded .. | .told ..
  | .left .. | .visited _ | .raised _ => false
  | .requested (.item _) .. => false
  | _ => true

namespace World

/-- Only what has to do with deliveries and with who owns what has changed. -/
structure Quiet (w w' : World) : Prop where
  items : w'.items.next = w.items.next
  descriptor : ∀ i, (w'.item i).descriptor = (w.item i).descriptor
  value : ∀ i, (w'.item i).value = (w.item i).value
  writes : ∀ i, (w'.item i).writes = (w.item i).writes
  chain : ∀ i, (w'.item i).chain = (w.item i).chain
  aspects : w'.aspects = w.aspects
  domains : w'.domains.next = w.domains.next
  stores : w'.stores.next = w.stores.next
  tickets : w'.tickets = w.tickets
  names : w'.names = w.names
  unwinding : w'.unwinding = w.unwinding
  history : ∃ asides, (∀ h ∈ asides, h.aside) ∧ w'.history = asides ++ w.history
  id : ∀ s, (w'.store s).id = (w.store s).id
  kind : ∀ d, (w'.domain d).kind = (w.domain d).kind
  arenas : ∀ {s i}, i ∈ (w'.store s).arena.toList →
    i ∈ (w.store s).arena.toList ∨ w.Owns s i
  storeAffinities : ∀ {s d}, (w'.store s).affinity = some d →
    (w.store s).affinity = some d ∨ d < w.domains.next
  itemAffinities : ∀ {i d}, (w'.item i).affinity = some d →
    (w.item i).affinity = some d ∨ d < w.domains.next
  subscribers : ∀ {d source s}, .store s ∈ (w'.domain d).subscribers source →
    .store s ∈ (w.domain d).subscribers source ∨ s < w.stores.next

theorem Quiet.refl (w : World) : w.Quiet w := by
  constructor <;> simp +contextual

theorem quiet_record {h : Happening} (hh : h.aside) (w : World) :
    w.Quiet { w with history := h :: w.history } :=
  { Quiet.refl w with history := ⟨[h], by simpa using hh, rfl⟩ }

/-- Who is held and how deep calls are nested is nobody's business. -/
theorem quiet_bookkeeping (w : World) (held : List Subscriber) (model trigger : Nat)
    (muted : Bool) : w.Quiet { w with held, modelDepth := model, triggerDepth := trigger, muted } :=
  { Quiet.refl w with }

theorem quiet_modifyDomain (w : World) (r : Nat) {f : Domain → Domain}
    (hk : ∀ d, (f d).kind = d.kind)
    (hs : ∀ d source s, .store s ∈ (f d).subscribers source →
      .store s ∈ d.subscribers source ∨ s < w.stores.next) :
    w.Quiet (w.modifyDomain r f) :=
  { Quiet.refl w with
    kind := fun d => by
      rw [domain_modifyDomain]
      split
      · next h => rw [hk, h]
      · rfl
    subscribers := fun {d source s} h => by
      rw [domain_modifyDomain] at h
      split at h
      · next hd => exact hd ▸ hs _ source s h
      · exact .inl h }

theorem quiet_subscribing (w : World) (affinity : Option Nat) (source : Source) {x : Subscriber}
    (hx : ∀ r, x = .store r → r < w.stores.next) : w.Quiet (w.subscribing affinity source x) := by
  cases affinity with
  | none => exact .refl w
  | some r =>
    refine w.quiet_modifyDomain r (fun d => d.kind_subscribe source x) fun d src s h => ?_
    rw [d.subscribers_subscribe] at h
    split at h
    · rcases List.mem_append.mp h with h | h
      · exact .inl h
      · exact .inr (hx s (List.mem_singleton.mp h).symm)
    · exact .inl h

theorem quiet_unsubscribing (w : World) (affinity : Option Nat) (source : Source) :
    w.Quiet (w.unsubscribing affinity source) := by
  cases affinity with
  | none => exact .refl w
  | some r =>
    refine w.quiet_modifyDomain r (fun d => d.kind_unsubscribe source) fun d src s h => ?_
    rw [d.subscribers_unsubscribe] at h
    split at h
    · cases h
    · exact .inl h

theorem quiet_sameTable (w : World) (r : Nat) {f : Domain → Domain}
    (h : ∀ d : Domain, d.SameTable (f d)) : w.Quiet (w.modifyDomain r f) :=
  w.quiet_modifyDomain r (fun d => (h d).kind) fun d source _ hs =>
    .inl ((h d).subscribers source ▸ hs)

theorem quiet_modifyStore (w : World) (r : Nat) {f : Store → Store}
    (hid : ∀ s, (f s).id = s.id)
    (ha : ∀ i ∈ (f (w.store r)).arena.toList, i ∈ (w.store r).arena.toList ∨ w.Owns r i)
    (hd : ∀ d, (f (w.store r)).affinity = some d →
      (w.store r).affinity = some d ∨ d < w.domains.next) :
    w.Quiet (w.modifyStore r f) :=
  { Quiet.refl w with
    id := fun s => by
      rw [store_modifyStore]
      split
      · next h => rw [hid, h]
      · rfl
    arenas := fun {s i} h => by
      rw [store_modifyStore] at h
      split at h
      · next hs => exact hs ▸ ha i h
      · exact .inl h
    storeAffinities := fun {s d} h => by
      rw [store_modifyStore] at h
      split at h
      · next hs => exact hs ▸ hd d h
      · exact .inl h }

/-- What a store counts and how it is in use is nobody's business. -/
theorem quiet_modifyStore_of_same (w : World) (r : Nat) {f : Store → Store}
    (h : ∀ s, (f s).id = s.id ∧ (f s).arena = s.arena ∧ (f s).affinity = s.affinity) :
    w.Quiet (w.modifyStore r f) :=
  w.quiet_modifyStore r (fun s => (h s).1) (fun _ hi => .inl ((h _).2.1 ▸ hi))
    fun _ hd => .inl ((h _).2.2 ▸ hd)

theorem quiet_modifySignal (w : World) (r : Nat) (f : Signal → Signal) :
    w.Quiet (w.modifySignal r f) :=
  w.quiet_modifyStore_of_same r fun _ => ⟨rfl, rfl, rfl⟩

theorem quiet_modifyItem (w : World) (r : Nat) {f : Item → Item}
    (h : ∀ i, (f i).descriptor = i.descriptor ∧ (f i).value = i.value ∧ (f i).writes = i.writes ∧
      (f i).chain = i.chain)
    (hd : ∀ d, (f (w.item r)).affinity = some d →
      (w.item r).affinity = some d ∨ d < w.domains.next) :
    w.Quiet (w.modifyItem r f) :=
  { Quiet.refl w with
    descriptor := fun i => by rw [item_modifyItem]; split <;> simp_all
    value := fun i => by rw [item_modifyItem]; split <;> simp_all
    writes := fun i => by rw [item_modifyItem]; split <;> simp_all
    chain := fun i => by rw [item_modifyItem]; split <;> simp_all
    itemAffinities := fun {i d} hi => by
      rw [item_modifyItem] at hi
      split at hi
      · next e => exact e ▸ hd d hi
      · exact .inl hi }

theorem Quiet.trans {u v w : World} (h : u.Quiet v) (h' : v.Quiet w) : u.Quiet w where
  items := h'.items.trans h.items
  descriptor i := (h'.descriptor i).trans (h.descriptor i)
  value i := (h'.value i).trans (h.value i)
  writes i := (h'.writes i).trans (h.writes i)
  chain i := (h'.chain i).trans (h.chain i)
  aspects := h'.aspects.trans h.aspects
  domains := h'.domains.trans h.domains
  stores := h'.stores.trans h.stores
  tickets := h'.tickets.trans h.tickets
  names := h'.names.trans h.names
  unwinding := h'.unwinding.trans h.unwinding
  history := by
    obtain ⟨a, ha, hh⟩ := h.history
    obtain ⟨a', ha', hh'⟩ := h'.history
    refine ⟨a' ++ a, fun x hx => ?_, by rw [hh', hh, List.append_assoc]⟩
    exact (List.mem_append.mp hx).elim (ha' x) (ha x)
  id s := (h'.id s).trans (h.id s)
  kind d := (h'.kind d).trans (h.kind d)
  arenas hi := by
    rcases h'.arenas hi with hi | hi
    · exact h.arenas hi
    · rw [Owns, h.items, h.descriptor] at hi
      exact .inr hi
  storeAffinities hd := by
    rcases h'.storeAffinities hd with hd | hd
    · exact h.storeAffinities hd
    · exact .inr (h.domains ▸ hd)
  itemAffinities hd := by
    rcases h'.itemAffinities hd with hd | hd
    · exact h.itemAffinities hd
    · exact .inr (h.domains ▸ hd)
  subscribers hs := by
    rcases h'.subscribers hs with hs | hs
    · exact h.subscribers hs
    · exact .inr (h.stores ▸ hs)

/-- Soundness does not hang on what a quiet change changes. -/
theorem Quiet.sound {w w' : World} (h : w.Quiet w') (hw : w.Sound) : w'.Sound where
  ids {s} hs := by
    rw [h.stores] at hs
    rw [h.id, hw.ids hs]
  owners {i} hi := by
    simp only [Owns, h.items, h.stores, h.descriptor] at hi ⊢
    exact hw.owners hi
  arenas {s i} hi := by
    rw [Owns, h.items, h.descriptor]
    rcases h.arenas hi with hi | hi
    · exact hw.arenas hi
    · exact hi
  chains {i a} ha := by rw [h.aspects]; rw [h.chain] at ha; exact hw.chains ha
  storeAffinities {s d} hd := by
    rw [h.domains]
    rcases h.storeAffinities hd with hd | hd
    · exact hw.storeAffinities hd
    · exact hd
  itemAffinities {i d} hd := by
    rw [h.domains]
    rcases h.itemAffinities hd with hd | hd
    · exact hw.itemAffinities hd
    · exact hd
  subscribers {d source s} hs := by
    rw [h.stores]
    rcases h.subscribers hs with hs | hs
    · exact hw.subscribers hs
    · exact hs
  names := h.names ▸ hw.names.mono (Nat.le_of_eq h.domains.symm) (Nat.le_of_eq h.stores.symm)
    (Nat.le_of_eq (by rw [h.aspects]))

theorem Quiet.grows {w w' : World} (h : w.Quiet w') : w.Grows w' where
  items := Nat.le_of_eq h.items.symm
  aspects := Nat.le_of_eq (by rw [h.aspects])
  domains := Nat.le_of_eq h.domains.symm
  stores := Nat.le_of_eq h.stores.symm
  tickets := Nat.le_of_eq h.tickets.symm
  history := by
    obtain ⟨asides, -, hh⟩ := h.history
    exact ⟨asides, hh.symm⟩
  descriptor _ := h.descriptor _
  chain _ := h.chain _
  id _ := h.id _
  kind _ := h.kind _

end World

end GuardedStore
