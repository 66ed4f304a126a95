import GuardedStore.Proofs.Audit.Record
import GuardedStore.Proofs.Run.Calm
import GuardedStore.Proofs.Run.Making

/-!
The law of audits.

An audit counts what it is told. If the aspect at an address belongs to one item alone, then the
balance of what it is told and what becomes of the accesses to the item is the same after every
computation as before it. Each access makes up for what it adds, also when a panic comes out of it,
as long as everyone is told who is to be told.

A panic that is on its way out lets no other panic begin, so a pass that was cut short is always
left completely.
-/
namespace GuardedStore

def Aspect.isAudit {σ : Type} : Aspect σ → Bool
  | .audit _ => true
  | _ => false

/-- The counts of an audit. -/
def Aspect.counts? {σ : Type} : Aspect σ → Option Audit
  | .audit a => some a
  | _ => none

theorem Aspect.eq_audit_of_counts? {σ : Type} {b : Aspect σ} {a : Audit} (h : b.counts? = some a) :
    b = .audit a := by
  cases b <;> cases h
  rfl

namespace World

/-- Nobody but one item calls on the aspect, an audit, which is the first aspect of the item's chain
and comes up there once. -/
structure Private (w : World) (x i : Nat) : Prop where
  audit : x < w.aspects.next → (w.aspect x).isAudit
  first : i < w.items.next → ∃ rest, (w.item i).chain = x :: rest ∧ x ∉ rest
  alone : ∀ {j}, j < w.items.next → j ≠ i → x ∉ (w.item j).chain
  unvisited : ∀ {chain}, .visited chain ∈ w.history → x ∉ chain

/-- No panic has cut the pass short. -/
structure Uncut (w : World) (p : Pass) : Prop where
  pos : 1 ≤ p.access.ticket
  begun : p.access.ticket ≤ w.tickets
  uncut : ∀ {xs phase}, .abandoned xs phase p.access ∉ w.history

/-- No pass with the ticket is held open. -/
def Unnamed (w : World) (ticket : Nat) : Prop :=
  ∀ {name p}, w.names.passages.find? name = some p → p.access.ticket ≠ ticket

/-- What is known of an aspect, of the passes held open and of those cut short. -/
structure Audited (x : Nat) (w : World) : Prop where
  sound : w.Sound
  counts : ∀ {a}, w.aspect x = .audit a → a = Audit.heard x w.history
  unheard : w.aspects.next ≤ x → ∀ phase a b, .told x phase a b ∉ w.history
  /-- Passes are held open only of chains that somebody other than an item visited. -/
  visited : ∀ {name p}, w.names.passages.find? name = some p →
    w.Uncut p ∧ ∃ chain, .visited chain ∈ w.history ∧ ∀ a ∈ p.entered, a ∈ chain
  begun : ∀ {xs phase a}, .abandoned xs phase a ∈ w.history → a.ticket ≤ w.tickets
  /-- A pass that was cut short is left completely. -/
  whole : ∀ {a older}, .left a false :: older <:+ w.history →
    ∀ xs phase, .abandoned xs phase a ∉ older

/-- Between `w` and `w'` the balance has changed by `δ`, if everyone was told, and no pass begun
before was cut short but that with ticket `own`. -/
structure Tilts (x i own : Nat) (δ : Phase → Bool → Int) (w : World) (e : Ending) (w' : World) :
    Prop where
  grows : w.Grows w'
  isAudit : x < w.aspects.next → (w'.aspect x).isAudit = (w.aspect x).isAudit
  unwinding : e = .panicked → w'.unwinding
  /-- Nothing panics while a panic is on its way out. -/
  steady : w.unwinding → e ≠ .panicked ∧ w'.unwinding
  abandoned : ∀ {xs phase a}, .abandoned xs phase a ∈ w'.history →
    .abandoned xs phase a ∈ w.history ∨ w.tickets < a.ticket ∨ 1 ≤ a.ticket ∧ a.ticket = own
  passages : ∀ {name p}, w'.names.passages.find? name = some p →
    (∃ name, w.names.passages.find? name = some p) ∨ w.tickets < p.access.ticket ∨
      1 ≤ p.access.ticket ∧ p.access.ticket = own
  balance : e ≠ .stuck → w'.Private x i → (∀ a, .left a false ∉ w'.history) → ∀ phase b,
    balance x i phase b w'.history = balance x i phase b w.history + δ phase b

variable {x i own : Nat} {δ δ' : Phase → Bool → Int} {u v w w' : World} {d e : Ending}

theorem Private.of_tilts (h : w'.Private x i) (ht : w.Tilts x i own δ e w') : w.Private x i where
  audit hx := ht.isAudit hx ▸ h.audit (Nat.lt_of_lt_of_le hx ht.grows.aspects)
  first hi := ht.grows.chain hi ▸ h.first (Nat.lt_of_lt_of_le hi ht.grows.items)
  alone hj hne := ht.grows.chain hj ▸ h.alone (Nat.lt_of_lt_of_le hj ht.grows.items) hne
  unvisited hv := h.unvisited (ht.grows.history.subset hv)

theorem Tilts.refl : w.Tilts x i own (fun _ _ => 0) .done w where
  grows := .refl w
  isAudit _ := rfl
  unwinding h := by cases h
  steady h := ⟨(fun hs => by cases hs), h⟩
  abandoned := .inl
  passages hp := .inl ⟨_, hp⟩
  balance _ _ _ _ _ := (Int.add_zero _).symm

theorem Tilts.trans (h : u.Tilts x i own δ d v) (h' : v.Tilts x i own δ' e w) :
    u.Tilts x i own (fun phase b => δ phase b + δ' phase b) (d.andThen e) w where
  grows := h.grows.trans h'.grows
  isAudit hx := (h'.isAudit (Nat.lt_of_lt_of_le hx h.grows.aspects)).trans (h.isAudit hx)
  unwinding he := by
    rcases Ending.andThen_eq_panicked he with he | he
    · exact (h'.steady (h.unwinding he)).2
    · exact h'.unwinding he
  steady hu := by
    obtain ⟨hd, hv⟩ := h.steady hu
    obtain ⟨he, hw⟩ := h'.steady hv
    exact ⟨fun hp => (Ending.andThen_eq_panicked hp).elim hd he, hw⟩
  abandoned ha := by
    rcases h'.abandoned ha with ha | ha | ha
    · exact h.abandoned ha
    · exact .inr (.inl (Nat.lt_of_le_of_lt h.grows.tickets ha))
    · exact .inr (.inr ha)
  passages hp := by
    rcases h'.passages hp with ⟨name, hp⟩ | hp | hp
    · exact h.passages hp
    · exact .inr (.inl (Nat.lt_of_le_of_lt h.grows.tickets hp))
    · exact .inr (.inr hp)
  balance he hx hl phase b := by
    obtain ⟨hd, he⟩ := Ending.ne_stuck_of_andThen he
    have hl' : ∀ a, .left a false ∉ v.history := fun a ha => hl a (h'.grows.history.subset ha)
    rw [h'.balance he hx hl, h.balance hd (hx.of_tilts h') hl']
    omega

theorem Tilts.congr (h : w.Tilts x i own δ e w')
    (hδ : e ≠ .stuck → w'.Private x i → (∀ a, .left a false ∉ w'.history) →
      ∀ phase b, δ phase b = δ' phase b) : w.Tilts x i own δ' e w' :=
  { h with
    balance := fun he hx hl phase b => by
      rw [h.balance he hx hl, hδ he hx hl] }

theorem Tilts.weaken (h : w.Tilts x i 0 δ e w') : w.Tilts x i own δ e w' :=
  { h with
    abandoned := fun ha => by
      rcases h.abandoned ha with ha | ha | ha
      · exact .inl ha
      · exact .inr (.inl ha)
      · omega
    passages := fun hp => by
      rcases h.passages hp with hp | hp | hp
      · exact .inl hp
      · exact .inr (.inl hp)
      · omega }

/-- A pass that began in the computation is a pass like others in the end. -/
theorem Tilts.disown (h : w.Tilts x i own δ e w') (ho : w.tickets < own) :
    w.Tilts x i 0 δ e w' :=
  { h with
    abandoned := fun ha => by
      rcases h.abandoned ha with ha | ha | ha
      · exact .inl ha
      · exact .inr (.inl ha)
      · exact .inr (.inl (by omega))
    passages := fun hp => by
      rcases h.passages hp with hp | hp | hp
      · exact .inl hp
      · exact .inr (.inl hp)
      · exact .inr (.inl (by omega)) }

/-- Somebody was not told, so nothing is said of the balance. -/
theorem Tilts.of_untold (h : w.Tilts x i own δ e w') {a : Access}
    (ha : .left a false ∈ w'.history) : w.Tilts x i own δ' e w' :=
  h.congr fun _ _ hl => absurd ha (hl a)

/-- A pass that was not cut short is not so later. -/
theorem Uncut.mono {p : Pass} (hp : w.Uncut p) (h : w.Tilts x i own δ e w')
    (ho : p.access.ticket ≠ own) : w'.Uncut p where
  pos := hp.pos
  begun := Nat.le_trans hp.begun h.grows.tickets
  uncut ha := by
    rcases h.abandoned ha with ha | ha | ha
    · exact hp.uncut ha
    · exact absurd hp.begun (Nat.not_le_of_gt ha)
    · exact ho ha.2

theorem Unnamed.mono {t : Nat} (ht : w.Unnamed t) (h : w.Tilts x i own δ e w')
    (hb : t ≤ w.tickets) (ho : t ≠ own) : w'.Unnamed t := by
  intro name p hp he
  rcases h.passages hp with ⟨name, hp⟩ | hp | hp
  · exact ht hp he
  · omega
  · omega

end World

/-- The law of audits, for an aspect and an item, and for a computation that is taking on the pass
with ticket `own`. -/
def auditing (x i own : Nat) : Law where
  inv := World.Audited x
  rel := World.Tilts x i own fun _ _ => 0
  refl _ := .refl
  trans _ _ h _ h' := h.trans h'

theorem Law.Holds.weaken_audit {x i own : Nat} {w w' : World} {e : Ending}
    (h : (auditing x i 0).Holds w e w') : (auditing x i own).Holds w e w' :=
  ⟨h.1, World.Tilts.weaken h.2⟩

namespace World

/-- Neither what aspects are told nor how accesses end is concerned by the change, and audits count
nothing but what they are told. -/
structure Apart (x : Nat) (w w' : World) : Prop where
  grows : w.Grows w'
  sound : w'.Sound
  passages : w'.names.passages = w.names.passages
  unwinding : w.unwinding → w'.unwinding
  isAudit : x < w.aspects.next → (w'.aspect x).isAudit = (w.aspect x).isAudit
  audits : ∀ {a}, w'.aspect x = .audit a → w.aspect x = .audit a ∨ a = {} ∧ w.aspects.next ≤ x
  history : ∃ newer, (∀ y ∈ newer, y.impartial) ∧ w'.history = newer ++ w.history

variable {x i own : Nat} {w w' : World}

theorem Apart.audited (h : w.Apart x w') (hw : w.Audited x) : w'.Audited x := by
  obtain ⟨newer, hn, hh⟩ := h.history
  have hold {y : Happening} (hy : y.impartial = false) (hm : y ∈ w'.history) : y ∈ w.history := by
    rw [hh] at hm
    refine (List.mem_append.mp hm).resolve_left fun hm => ?_
    rw [hn y hm] at hy
    cases hy
  exact {
    sound := h.sound
    counts := fun {a} ha => by
      rw [hh, Audit.heard_append fun y hy => Happening.tells_of_impartial (hn y hy) x]
      rcases h.audits ha with ha | ⟨rfl, hx⟩
      · exact hw.counts ha
      · exact (Audit.heard_eq_empty (hw.unheard hx)).symm
    unheard := fun hx phase a b hm =>
      hw.unheard (Nat.le_trans h.grows.aspects hx) phase a b (hold rfl hm)
    visited := fun hp => by
      rw [h.passages] at hp
      obtain ⟨hu, chain, hv, hc⟩ := hw.visited hp
      exact ⟨⟨hu.pos, Nat.le_trans hu.begun h.grows.tickets, fun ha => hu.uncut (hold rfl ha)⟩,
        chain, h.grows.history.subset hv, hc⟩
    begun := fun ha => Nat.le_trans (hw.begun (hold rfl ha)) h.grows.tickets
    whole := fun {a older} hs => by
      obtain ⟨later, hs⟩ := hs
      rw [hh] at hs
      rcases List.append_eq_append_iff.mp hs with ⟨k, rfl, hk⟩ | ⟨k, rfl, hk⟩
      · cases k with
        | nil => exact hw.whole ⟨[], hk⟩
        | cons y k =>
          obtain ⟨rfl, -⟩ := List.cons_eq_cons.mp hk
          cases hn (.left a false) (by simp)
      · exact hw.whole ⟨k, hk.symm⟩ }

theorem Apart.tilts (h : w.Apart x w') : w.Tilts x i own (fun _ _ => 0) .done w' := by
  obtain ⟨newer, hn, hh⟩ := h.history
  refine ⟨h.grows, h.isAudit, (fun h => by cases h),
    fun hu => ⟨(fun hs => by cases hs), h.unwinding hu⟩, fun ha => .inl ?_,
    fun hp => .inl ⟨_, h.passages ▸ hp⟩, fun _ _ _ phase b => ?_⟩
  · rw [hh] at ha
    refine (List.mem_append.mp ha).resolve_left fun hm => ?_
    cases hn _ hm
  · rw [hh, balance_of_impartial hn, Int.add_zero]

theorem Apart.holds (h : w.Apart x w') (hw : w.Audited x) :
    (auditing x i own).Holds w .done w' :=
  ⟨h.audited hw, h.tilts⟩

/-- Nothing has changed that passes and audits go by. -/
theorem apart_of_same (hg : w.Grows w') (hs : w'.Sound)
    (hp : w'.names.passages = w.names.passages) (hu : w'.unwinding = w.unwinding)
    (ha : w'.aspects = w.aspects)
    (hh : ∃ newer, (∀ y ∈ newer, y.impartial) ∧ w'.history = newer ++ w.history) :
    w.Apart x w' where
  grows := hg
  sound := hs
  passages := hp
  unwinding h := hu ▸ h
  isAudit _ := by rw [aspect, aspect, ha]
  audits h := .inl (by rwa [aspect, ha] at h)
  history := hh

theorem Quiet.apart (h : w.Quiet w') (hw : w.Sound) : w.Apart x w' := by
  obtain ⟨asides, ha, hh⟩ := h.history
  refine apart_of_same h.grows (h.sound hw) (by rw [h.names]) h.unwinding h.aspects
    ⟨asides, fun y hy => ?_, hh⟩
  have := ha y hy
  cases y <;> first | rfl | cases this

theorem Idle.apart (h : w.Idle w') (hw : w.Sound) : w.Apart x w' := by
  obtain ⟨notes, hn, hh⟩ := h.history
  refine apart_of_same h.grows (h.sound hw) h.passages h.unwinding h.aspects
    ⟨notes, fun y hy => ?_, hh⟩
  have := hn y hy
  cases y <;> first | rfl | cases this

theorem apart_mark {y : Happening} (hy : y.impartial) (hw : w.Sound) : w.Apart x (w.mark y) :=
  apart_of_same (grows_mark y w) (sound_mark y hw) rfl rfl rfl ⟨[y], by simpa using hy, rfl⟩

theorem apart_begin (chain : List Nat) (phase : Phase) (access : Access) (hw : w.Sound) :
    w.Apart x (w.begin chain phase access) :=
  apart_of_same (grows_begin chain phase access w) (sound_begin chain phase access hw) rfl rfl rfl
    ⟨[_], by simp [Happening.impartial], rfl⟩

theorem apart_withAspect {a : Aspect Nat} (ha : a.Fresh) (hw : w.Sound) :
    w.Apart x (w.withAspect a) where
  grows := grows_withAspect a
  sound := sound_withAspect a hw
  passages := rfl
  unwinding := id
  isAudit hx := by rw [aspect_withAspect, if_neg (Nat.ne_of_lt hx)]
  audits {b} hb := by
    rw [aspect_withAspect] at hb
    split at hb
    · next h =>
      subst hb
      cases ha
      exact .inr ⟨rfl, Nat.le_of_eq h.symm⟩
    · exact .inl hb
  history := ⟨[], by simp, rfl⟩

/-- An aspect that is no audit is written anew. -/
theorem apart_setAspect {y : Nat} {a : Aspect Nat} (hy : (w.aspect y).isAudit = false)
    (ha : a.isAudit = false) (hw : w.Sound) : w.Apart x (w.setAspect y a) where
  grows := grows_setAspect y a w
  sound := sound_setAspect y a hw
  passages := rfl
  unwinding := id
  isAudit _ := by
    rw [aspect_setAspect]
    split
    · next h => rw [ha, h, hy]
    · rfl
  audits {b} hb := by
    rw [aspect_setAspect] at hb
    split at hb
    · subst hb
      cases ha
    · exact .inl hb
  history := ⟨[], by simp, rfl⟩

end World

theorem auditing_calm (x i : Nat) : (auditing x i 0).Calm where
  sound hw := World.Audited.sound hw
  grows h := World.Tilts.grows h
  quiet h hw := (h.apart (World.Audited.sound hw)).holds hw
  stuck _ := {
    grows := .refl _
    isAudit := fun _ => rfl
    unwinding := nofun
    steady := fun h => ⟨nofun, h⟩
    abandoned := .inl
    passages := fun hp => .inl ⟨_, hp⟩
    balance := fun h => absurd rfl h }
  rename hp hn _ hw := (World.apart_of_same World.grows_rename
    (World.sound_rename hn (World.Audited.sound hw)) hp rfl rfl ⟨[], by simp, rfl⟩).holds hw
  newStore hid ha hd := Engine.keepsAt_of_eq rfl fun hw =>
    (World.apart_of_same (World.grows_withStore _)
      (World.sound_withStore hid ha hd (World.Audited.sound hw)) rfl rfl rfl
      ⟨[], by simp, rfl⟩).holds hw
  newItem hs hid hc hd _ _ := Engine.keepsAt_of_eq rfl fun hw =>
    (World.apart_of_same (World.grows_withItem _)
      (World.sound_withItem ⟨_, hs, hid⟩ hc hd (World.Audited.sound hw)) rfl rfl rfl
      ⟨[_], by simp [Happening.impartial], rfl⟩).holds hw

theorem panic_keeps_auditing (x i : Nat) (text : String) :
    (Engine.panic text).Keeps (auditing x i 0) := by
  intro w hw
  unfold Engine.panic
  split
  · exact ⟨hw, .refl⟩
  · next hu =>
    have ha : w.Apart x (w.raise text) := {
      grows := World.grows_raise text
      sound := World.sound_raise text (World.Audited.sound hw)
      passages := rfl
      unwinding := fun _ => rfl
      isAudit := fun _ => rfl
      audits := .inl
      history := ⟨[_], by simp [Happening.impartial], rfl⟩ }
    have ht : w.Tilts x i 0 (fun _ _ => 0) .done (w.raise text) := ha.tilts
    exact ⟨ha.audited hw, {
      grows := ht.grows
      isAudit := ht.isAudit
      unwinding := fun _ => rfl
      steady := fun h => absurd h hu
      abandoned := ht.abandoned
      passages := ht.passages
      balance := fun _ => ht.balance nofun }⟩

end GuardedStore
