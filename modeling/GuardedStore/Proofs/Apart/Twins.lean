import GuardedStore.Proofs.Apart.Sides
import Mathlib.Data.List.Forall2

/-!
What is the same in two worlds but for addresses.

What the steps of one side make lies at other addresses when the other side makes things of its own
in between. `Twins` says which address in the one world stands for which in the other, and the
relations named `Twin` say that two records are the same but for that. Whatever is done with an
arena does the same in its twin.
-/
namespace GuardedStore

/-- Which addresses, and which tickets, stand for one another in two worlds. -/
structure Twins where
  items : Nat → Nat → Prop
  aspects : Nat → Nat → Prop
  routines : Nat → Nat → Prop
  tickets : Nat → Nat → Prop

namespace Twins

def none : Twins where
  items _ _ := False
  aspects _ _ := False
  routines _ _ := False
  tickets _ _ := False

instance : LE Twins where
  le t s := (∀ {i j}, t.items i j → s.items i j) ∧ (∀ {i j}, t.aspects i j → s.aspects i j) ∧
    (∀ {i j}, t.routines i j → s.routines i j) ∧ ∀ {i j}, t.tickets i j → s.tickets i j

theorem le_refl (t : Twins) : t ≤ t :=
  ⟨id, id, id, id⟩

theorem le_trans {t s r : Twins} (h : t ≤ s) (h' : s ≤ r) : t ≤ r :=
  ⟨fun x => h'.1 (h.1 x), fun x => h'.2.1 (h.2.1 x), fun x => h'.2.2.1 (h.2.2.1 x),
    fun x => h'.2.2.2 (h.2.2.2 x)⟩

end Twins

/-- Addresses below `n` and `m` stand for one another, one for one. -/
structure Links (r : Nat → Nat → Prop) (n m : Nat) : Prop where
  lt : ∀ {i j}, r i j → i < n ∧ j < m
  left : ∀ {i j k}, r i j → r i k → j = k
  right : ∀ {i j k}, r i k → r j k → i = j

/-- The new ones of two addresses that stand for one another are both new. -/
def Renews (r s : Nat → Nat → Prop) (n m : Nat) : Prop :=
  ∀ i j, s i j → r i j ∨ n ≤ i ∧ m ≤ j

namespace Links

variable {r : Nat → Nat → Prop} {n m : Nat}

theorem none : Links (fun _ _ => False) n m :=
  ⟨False.elim, False.elim, False.elim⟩

theorem mono (h : Links r n m) {n' m' : Nat} (hn : n ≤ n') (hm : m ≤ m') : Links r n' m' :=
  { h with lt := fun hr => ⟨Nat.lt_of_lt_of_le (h.lt hr).1 hn, Nat.lt_of_lt_of_le (h.lt hr).2 hm⟩ }

theorem iff (h : Links r n m) {i j k l : Nat} (hi : r i k) (hj : r j l) : i = j ↔ k = l := by
  constructor
  · rintro rfl
    exact h.left hi hj
  · rintro rfl
    exact h.right hi hj

/-- Two new addresses stand for one another. -/
theorem push (h : Links r n m) :
    Links (fun i j => r i j ∨ i = n ∧ j = m) (n + 1) (m + 1) where
  lt := by
    rintro i j (hr | ⟨rfl, rfl⟩)
    · have := h.lt hr
      omega
    · omega
  left := by
    rintro i j k (hr | ⟨rfl, rfl⟩) (hr' | ⟨hi, rfl⟩)
    · exact h.left hr hr'
    · have := h.lt hr
      omega
    · have := h.lt hr'
      omega
    · rfl
  right := by
    rintro i j k (hr | ⟨rfl, rfl⟩) (hr' | ⟨rfl, hk⟩)
    · exact h.right hr hr'
    · have := h.lt hr
      omega
    · have := h.lt hr'
      omega
    · rfl

end Links

theorem renews_push {r : Nat → Nat → Prop} {n m : Nat} :
    Renews r (fun i j => r i j ∨ i = n ∧ j = m) n m := by
  rintro i j (hr | ⟨rfl, rfl⟩)
  · exact .inl hr
  · exact .inr ⟨Nat.le_refl _, Nat.le_refl _⟩

theorem Renews.trans {r s q : Nat → Nat → Prop} {n m n' m' : Nat} (h : Renews r s n m)
    (h' : Renews s q n' m') (hn : n ≤ n') (hm : m ≤ m') : Renews r q n m := by
  intro i j hq
  rcases h' i j hq with hs | ⟨hi, hj⟩
  · exact h i j hs
  · exact .inr ⟨Nat.le_trans hn hi, Nat.le_trans hm hj⟩

section Records

variable (t : Twins)

structure Access.Twin (a' a : Access) : Prop where
  descriptor : a'.descriptor = a.descriptor
  value : a'.value = a.value
  ticket : t.tickets a'.ticket a.ticket

structure Pass.Twin (p' p : Pass) : Prop where
  phase : p'.phase = p.phase
  access : p'.access.Twin t p.access
  entered : List.Forall₂ t.aspects p'.entered p.entered
  refusedBy : Option.Rel t.aspects p'.refusedBy p.refusedBy

structure Probe.Twin (p' p : Probe Nat) : Prop where
  name : p'.name = p.name
  quiet : p'.quiet = p.quiet
  writes : p'.writes = p.writes
  reads : p'.reads = p.reads
  script : ∀ h, Option.Rel t.routines (p'.script h) (p.script h)
  writesAsked : p'.writesAsked = p.writesAsked
  readsAsked : p'.readsAsked = p.readsAsked

structure Lock.Twin (l' l : Lock) : Prop where
  patience : l'.patience = l.patience
  holder : Option.Rel t.tickets l'.holder l.holder
  timeouts : l'.timeouts = l.timeouts

inductive Aspect.Twin : Aspect Nat → Aspect Nat → Prop where
  | audit (a : Audit) : Twin (.audit a) (.audit a)
  | lock {l' l : Lock} (h : l'.Twin t l) : Twin (.lock l') (.lock l)
  | validation (v : Validation) : Twin (.validation v) (.validation v)
  | plain (name : String) : Twin (.plain name) (.plain name)
  | probe {p' p : Probe Nat} (h : p'.Twin t p) : Twin (.probe p') (.probe p)

/-- The items are the same, and are those of a store of the side. -/
structure Item.Twin (c : Side) (i' i : Item) : Prop where
  descriptor : i'.descriptor = i.descriptor
  value : i'.value = i.value
  chain : List.Forall₂ t.aspects i'.chain i.chain
  affinity : i'.affinity = i.affinity
  writes : i'.writes = i.writes
  state : i'.state = i.state
  fires : c.fires i.source

/-- The routines are the same, and their script keeps to the side. -/
structure Routine.Twin (c : Side) (r' r : Routine) : Prop where
  script : r'.script = r.script
  calls : r'.calls = r.calls
  keepsTo : r.script.KeepsTo c

structure Slot.Twin (s' s : Slot Nat) : Prop where
  generation : s'.generation = s.generation
  item : Option.Rel t.items s'.item s.item

structure Arena.Twin (a' a : Arena Nat) : Prop where
  slots : List.Forall₂ (Slot.Twin t) a'.slots a.slots
  free : a'.free = a.free
  size : a'.size = a.size

structure ModelHook.Twin (h' h : ModelHook) : Prop where
  label : h'.label = h.label
  script : Option.Rel t.routines h'.script h.script

structure Signal.Twin (s' s : Signal) : Prop where
  triggered : s'.triggered = s.triggered
  pending : s'.pending = s.pending
  executions : s'.executions = s.executions
  hooks : List.Forall₂ (ModelHook.Twin t) s'.hooks s.hooks
  running : s'.running = s.running

structure Store.Twin (s' s : Store) : Prop where
  id : s'.id = s.id
  config : s'.config = s.config
  arena : s'.arena.Twin t s.arena
  names : s'.names = s.names
  affinity : s'.affinity = s.affinity
  affinityReaders : s'.affinityReaders = s.affinityReaders
  triggers : s'.triggers = s.triggers
  signal : s'.signal.Twin t s.signal
  dropped : s'.dropped = s.dropped
  sharers : s'.sharers = s.sharers
  owned : s'.owned = s.owned
  replaced : s'.replaced = s.replaced

/-- What names of the side stand for is the same. -/
structure Names.Twin (c : Side) (n' n : Names) : Prop where
  domains : n'.domains = n.domains
  flags : n'.flags = n.flags
  stores : ∀ {x}, c.names x → n'.stores.find? x = n.stores.find? x
  owned : ∀ {x s}, c.names x → n.stores.find? x = some s → c.stores s
  storeIds : n'.storeIds = n.storeIds
  keys : ∀ {x}, c.names x ∨ c.foreign x → n'.keys.find? x = n.keys.find? x
  keyStores : ∀ {x k}, c.names x → n.keys.find? x = some k → c.names k.storeName
  aspects : ∀ {x}, c.names x → Option.Rel t.aspects (n'.aspects.find? x) (n.aspects.find? x)
  chains : ∀ {x}, c.names x →
    Option.Rel (List.Forall₂ t.aspects) (n'.chains.find? x) (n.chains.find? x)

end Records

/-! ### More addresses come to stand for one another -/

theorem rel_imp {α β : Type} {r s : α → β → Prop} (h : ∀ {a b}, r a b → s a b)
    {o' : Option α} {o : Option β} (ho : Option.Rel r o' o) : Option.Rel s o' o := by
  cases ho with
  | none => exact .none
  | some hr => exact .some (h hr)

theorem rel_isSome {α β : Type} {r : α → β → Prop} {o' : Option α} {o : Option β}
    (ho : Option.Rel r o' o) : o'.isSome = o.isSome := by
  cases ho <;> rfl

theorem rel_cases {α β : Type} {r : α → β → Prop} {o' : Option α} {o : Option β}
    (ho : Option.Rel r o' o) :
    o' = none ∧ o = none ∨ ∃ a' a, o' = some a' ∧ o = some a ∧ r a' a := by
  cases ho with
  | none => exact .inl ⟨rfl, rfl⟩
  | some h => exact .inr ⟨_, _, rfl, rfl, h⟩

section Mono

variable {t s : Twins} (hle : t ≤ s)

include hle

theorem Access.Twin.mono {a' a : Access} (h : a'.Twin t a) : a'.Twin s a :=
  { h with ticket := hle.2.2.2 h.ticket }

theorem chain_mono {l' l : List Nat} (h : List.Forall₂ t.aspects l' l) :
    List.Forall₂ s.aspects l' l :=
  h.imp fun _ _ => hle.2.1

theorem Pass.Twin.mono {p' p : Pass} (h : p'.Twin t p) : p'.Twin s p where
  phase := h.phase
  access := h.access.mono hle
  entered := chain_mono hle h.entered
  refusedBy := rel_imp hle.2.1 h.refusedBy

theorem Probe.Twin.mono {p' p : Probe Nat} (h : p'.Twin t p) : p'.Twin s p :=
  { h with script := fun hook => rel_imp hle.2.2.1 (h.script hook) }

theorem Aspect.Twin.mono {a' a : Aspect Nat} (h : a'.Twin t a) : a'.Twin s a := by
  cases h with
  | audit a => exact .audit a
  | lock h => exact .lock { h with holder := rel_imp hle.2.2.2 h.holder }
  | validation v => exact .validation v
  | plain name => exact .plain name
  | probe h => exact .probe (h.mono hle)

theorem Item.Twin.mono {c : Side} {i' i : Item} (h : i'.Twin t c i) : i'.Twin s c i :=
  { h with chain := chain_mono hle h.chain }

theorem Arena.Twin.mono {a' a : Arena Nat} (h : a'.Twin t a) : a'.Twin s a :=
  { h with slots := h.slots.imp fun _ _ hs => { hs with item := rel_imp hle.1 hs.item } }

theorem ModelHook.Twin.mono {h' h : ModelHook} (hh : h'.Twin t h) : h'.Twin s h :=
  { hh with script := rel_imp hle.2.2.1 hh.script }

theorem Store.Twin.mono {s' st : Store} (h : s'.Twin t st) : s'.Twin s st :=
  { h with
    arena := h.arena.mono hle
    signal := { h.signal with hooks := h.signal.hooks.imp fun _ _ hh => hh.mono hle } }

theorem Names.Twin.mono {c : Side} {n' n : Names} (h : n'.Twin t c n) : n'.Twin s c n :=
  { h with
    aspects := fun hx => rel_imp hle.2.1 (h.aspects hx)
    chains := fun hx => rel_imp (chain_mono hle) (h.chains hx) }

end Mono

/-! ### Twin arenas -/

namespace Arena.Twin

variable {t : Twins} {a' a : Arena Nat}

theorem getD_twin {l' l : List (Slot Nat)} (h : List.Forall₂ (Slot.Twin t) l' l) (n : Nat) :
    (l'.getD n {}).Twin t (l.getD n {}) := by
  induction h generalizing n with
  | nil => exact ⟨rfl, .none⟩
  | cons hs _ ih =>
    cases n with
    | zero => exact hs
    | succ n => exact ih n

theorem slot (h : a'.Twin t a) (index : UInt32) : (a'.slot index).Twin t (a.slot index) :=
  getD_twin h.slots _

theorem set_twin {l' l : List (Slot Nat)} {s' s : Slot Nat}
    (h : List.Forall₂ (Slot.Twin t) l' l) (hs : s'.Twin t s) (n : Nat) :
    List.Forall₂ (Slot.Twin t) (l'.set n s') (l.set n s) := by
  induction h generalizing n with
  | nil => exact .nil
  | cons hx hl ih =>
    cases n with
    | zero => exact .cons hs hl
    | succ n => exact .cons hx (ih n)

theorem setSlot (h : a'.Twin t a) {s' s : Slot Nat} (hs : s'.Twin t s) (index : UInt32) :
    (a'.setSlot index s').Twin t (a.setSlot index s) :=
  { h with slots := set_twin h.slots hs _ }

theorem get? (h : a'.Twin t a) (id : ItemId) : Option.Rel t.items (a'.get? id) (a.get? id) := by
  have hs := h.slot id.index
  unfold Arena.get?
  rw [hs.generation]
  split
  · exact hs.item
  · exact .none

theorem contains (h : a'.Twin t a) (id : ItemId) : a'.contains id = a.contains id :=
  rel_isSome (h.get? id)

theorem reserve? (h : a'.Twin t a) : Option.Rel (fun r' r => r'.1 = r.1 ∧ r'.2.Twin t r.2)
    a'.reserve? a.reserve? := by
  unfold Arena.reserve?
  rw [h.free, h.slots.length_eq]
  split
  · next index free hf => exact .some ⟨by rw [(h.slot index).generation], { h with free := rfl }⟩
  · split
    · have hs := List.rel_append h.slots (.cons (⟨rfl, .none⟩ : Slot.Twin t {} {}) .nil)
      exact .some ⟨rfl, hs, rfl, h.size⟩
    · exact .none

theorem fill (h : a'.Twin t a) {x' x : Nat} (hx : t.items x' x) (id : ItemId) :
    (a'.fill id x').Twin t (a.fill id x) := by
  have filled : Slot.Twin t { a'.slot id.index with item := some x' }
      { a.slot id.index with item := some x } := ⟨(h.slot id.index).generation, .some hx⟩
  exact { h.setSlot filled id.index with size := congrArg (· + 1) h.size }

theorem remove? (h : a'.Twin t a) (id : ItemId) :
    Option.Rel (fun r' r => t.items r'.1 r.1 ∧ r'.2.Twin t r.2) (a'.remove? id) (a.remove? id) := by
  unfold Arena.remove?
  have hg := h.get? id
  cases hx' : a'.get? id <;> cases hx : a.get? id <;> rw [hx', hx] at hg
  · exact .none
  · cases hg
  · cases hg
  · cases hg with
    | some hg =>
      have vacant : Slot.Twin t { generation := id.generation + 1 }
        { generation := id.generation + 1 } := ⟨rfl, .none⟩
      exact .some ⟨hg, { h.setSlot vacant id.index with
        free := congrArg (id.index :: ·) h.free
        size := congrArg (· - 1) h.size }⟩

theorem toList (h : a'.Twin t a) : List.Forall₂ t.items a'.toList a.toList :=
  List.rel_filterMap (fun _ _ hs => hs.item) h.slots

theorem occupied_eq {l' l : List (Slot Nat)} (h : List.Forall₂ (Slot.Twin t) l' l) (n : Nat) :
    occupied n l' = occupied n l := by
  induction h generalizing n with
  | nil => rfl
  | cons hs _ ih =>
    unfold occupied
    rw [ih, rel_isSome hs.item]

theorem drain (h : a'.Twin t a) :
    List.Forall₂ t.items a'.drain.1 a.drain.1 ∧ a'.drain.2.Twin t a.drain.2 := by
  refine ⟨h.toList, ?_, ?_, rfl⟩
  · refine List.rel_map (fun s' s hs => ?_) h.slots
    unfold Slot.vacate
    rw [rel_isSome hs.item, hs.generation]
    split
    · exact ⟨rfl, .none⟩
    · exact hs
  · show (occupied 0 a'.slots).reverse ++ a'.free = (occupied 0 a.slots).reverse ++ a.free
    rw [occupied_eq h.slots, h.free]

end Arena.Twin

end GuardedStore
