import GuardedStore.Proofs.Passes.Law
import GuardedStore.Proofs.Run.Calm
import GuardedStore.Proofs.Run.Making

/-!
What the law of passes lets happen beside passes: deliveries, bookkeeping, panics, and new aspects,
items, stores and domains.
-/
namespace GuardedStore

theorem Took.mono {x t : Nat} {h newer : List Happening} (ht : Took x t h) :
    Took x t (newer ++ h) := by
  obtain ⟨phase, a, ha, hm⟩ := ht
  exact ⟨phase, a, ha, by simp [hm]⟩

theorem took_aside {x t : Nat} {h newer : List Happening} (hn : ∀ y ∈ newer, y.ticket? = none) :
    Took x t (newer ++ h) ↔ Took x t h := by
  refine ⟨fun ⟨phase, a, ha, hm⟩ => ⟨phase, a, ha, ?_⟩, Took.mono⟩
  rcases List.mem_append.mp hm with hm | hm
  · cases hn _ hm
  · exact hm

theorem heard_aside {x t : Nat} {h newer : List Happening} (hn : ∀ y ∈ newer, y.ticket? = none) :
    Heard x t (newer ++ h) ↔ Heard x t h := by
  constructor
  · rintro ⟨phase, a, b, ha, hm⟩
    rcases List.mem_append.mp hm with hm | hm
    · cases hn _ hm
    · exact ⟨phase, a, b, ha, hm⟩
  · rintro ⟨phase, a, b, ha, hm⟩
    exact ⟨phase, a, b, ha, by simp [hm]⟩

theorem Excused.cons {x : Happening} {h : List Happening} (he : Excused h)
    (hx : ∀ a, x = .left a false → ∃ later aspect phase b text earlier,
      h = later ++ .told aspect phase a b :: earlier ∧ .raised text ∈ later) : Excused (x :: h) := by
  intro newer a older hh
  cases newer with
  | nil =>
    obtain ⟨rfl, rfl⟩ := List.cons.inj hh
    exact hx a rfl
  | cons y newer => exact he newer a older (List.cons.inj hh).2

theorem Excused.append {h newer : List Happening} (he : Excused h)
    (hn : ∀ y ∈ newer, y.ticket? = none) : Excused (newer ++ h) := by
  induction newer with
  | nil => exact he
  | cons x newer ih =>
    refine (ih fun y hy => hn y (List.mem_cons_of_mem _ hy)).cons ?_
    rintro a rfl
    cases hn _ List.mem_cons_self

namespace World

/-- No pass is concerned by the change, and no lock but for new ones, which are free. -/
structure Beside (w w' : World) : Prop where
  grows : w.Grows w'
  sound : w'.Sound
  tickets : w'.tickets = w.tickets
  passages : w'.names.passages = w.names.passages
  isLock : ∀ {x}, x < w.aspects.next → (w'.aspect x).isLock = (w.aspect x).isLock
  locks : ∀ {x l}, w'.aspect x = .lock l →
    (∃ l₀, w.aspect x = .lock l₀ ∧ l₀.holder = l.holder) ∨ l.holder = none ∧ w.aspects.next ≤ x
  history : ∃ newer, (∀ y ∈ newer, y.ticket? = none) ∧ w'.history = newer ++ w.history

theorem Beside.open_iff {w w' : World} (h : w.Beside w') (t : Nat) : w'.Open t ↔ w.Open t := by
  unfold Open
  rw [h.passages]

theorem Beside.shows {w w' : World} (h : w.Beside w') {r : PassRecord} (hr : w.Shows r) :
    w'.Shows r where
  lawful := hr.lawful
  pos := hr.pos
  begun := h.tickets ▸ hr.begun
  record := by
    obtain ⟨newer, hn, hh⟩ := h.history
    rw [hh, ofTicket_of_aside hn, hr.record]
  whole := hr.whole
  panicked ha := h.grows.panicked (hr.panicked ha)

theorem Beside.orderly {w w' : World} (h : w.Beside w') (hw : w.Orderly) : w'.Orderly := by
  obtain ⟨newer, hn, hh⟩ := h.history
  exact {
    sound := h.sound
    records := fun h1 ht => by
      obtain ⟨r, hrt, hr⟩ := hw.records h1 (h.tickets ▸ ht)
      exact ⟨r, hrt, h.shows hr⟩
    fresh := fun ht => by
      rw [hh, ofTicket_of_aside hn]
      exact hw.fresh (h.tickets ▸ ht)
    begun := by rw [hh, begunTickets_of_aside hn, hw.begun, h.tickets]
    outside := fun hx => by
      rw [hh, ofTicket_of_aside hn] at hx
      exact hw.outside hx
    waiting := fun hp => by
      rw [h.passages] at hp
      obtain ⟨r, hr, hrest⟩ := hw.waiting hp
      exact ⟨r, h.shows hr, hrest⟩
    distinct := fun hp hp' => by
      rw [h.passages] at hp hp'
      exact hw.distinct hp hp'
    asked := fun {x phase a b} hm => by
      rw [hh] at hm
      rcases List.mem_append.mp hm with hm | hm
      · cases hn _ hm
      · exact Nat.lt_of_lt_of_le (hw.asked hm) h.grows.aspects
    custody := fun {x l t} hx h1 => by
      rw [hh, took_aside hn, heard_aside hn]
      rcases h.locks hx with ⟨l₀, hl₀, hh₀⟩ | ⟨hl, hx⟩
      · rw [← hh₀]
        exact hw.custody hl₀ h1
      · rw [hl]
        refine ⟨by simp, fun ⟨⟨phase, a, ha, hm⟩, _⟩ => ?_⟩
        have := hw.asked hm
        omega
    taken := fun {x l t} hx ht => by
      rcases h.locks hx with ⟨l₀, hl₀, hh₀⟩ | ⟨hl, -⟩
      · exact hh ▸ (hw.taken hl₀ (hh₀.trans ht)).mono
      · rw [hl] at ht
        cases ht
    excused := hh ▸ hw.excused.append hn }

theorem Beside.holds {w w' : World} (h : w.Beside w') (own : Nat) (hw : w.Orderly) :
    (passes own).Holds w .done w' := by
  obtain ⟨newer, hn, hh⟩ := h.history
  refine ⟨h.orderly hw, h.grows, h.isLock, fun _ _ _ ho => ?_, fun _ t h1 ht _ hc => ?_,
    fun h => by cases h⟩
  · exact ⟨by rw [hh, ofTicket_of_aside hn], fun ho' => ho ((h.open_iff _).mp ho')⟩
  · rcases hc with hc | hc | hc
    · rw [h.tickets] at ht
      omega
    · exact .inl ((h.open_iff t).mpr hc)
    · exact .inr (hc.mono h.grows)

theorem ticket?_of_aside {h : Happening} (hh : h.aside) : h.ticket? = none := by
  cases h <;> first | rfl | cases hh

theorem ticket?_of_inTrace {h : Happening} (hh : h.inTrace) : h.ticket? = none := by
  cases h <;> first | rfl | cases hh

variable {w w' : World}

theorem Quiet.beside (h : w.Quiet w') (hw : w.Sound) : w.Beside w' where
  grows := h.grows
  sound := h.sound hw
  tickets := h.tickets
  passages := by rw [h.names]
  isLock _ := by rw [aspect, aspect, h.aspects]
  locks {x l} hx := .inl ⟨l, by rwa [aspect, ← h.aspects], rfl⟩
  history := by
    obtain ⟨asides, ha, hh⟩ := h.history
    exact ⟨asides, fun y hy => ticket?_of_aside (ha y hy), hh⟩

theorem Idle.beside (h : w.Idle w') (hw : w.Sound) : w.Beside w' where
  grows := h.grows
  sound := h.sound hw
  tickets := h.tickets
  passages := h.passages
  isLock _ := by rw [aspect, aspect, h.aspects]
  locks {x l} hx := .inl ⟨l, by rwa [aspect, ← h.aspects], rfl⟩
  history := by
    obtain ⟨notes, hn, hh⟩ := h.history
    exact ⟨notes, fun y hy => ticket?_of_inTrace (hn y hy), hh⟩

theorem beside_raise (text : String) (hw : w.Sound) : w.Beside (w.raise text) where
  grows := grows_raise text
  sound := sound_raise text hw
  tickets := rfl
  passages := rfl
  isLock _ := rfl
  locks {x l} hx := .inl ⟨l, hx, rfl⟩
  history := ⟨[.raised text], by simp [Happening.ticket?], rfl⟩

theorem beside_unwinding (unwinding : Bool) (hw : w.Sound) : w.Beside { w with unwinding } where
  grows := { Grows.refl w with }
  sound := sound_unwinding unwinding hw
  tickets := rfl
  passages := rfl
  isLock _ := rfl
  locks {x l} hx := .inl ⟨l, hx, rfl⟩
  history := ⟨[], by simp, rfl⟩

theorem beside_withAspect {a : Aspect Nat} (ha : a.Fresh) (hw : w.Sound) :
    w.Beside (w.withAspect a) where
  grows := grows_withAspect a
  sound := sound_withAspect a hw
  tickets := rfl
  passages := rfl
  isLock {x} hx := by rw [aspect_withAspect, if_neg (Nat.ne_of_lt hx)]
  locks {x l} hx := by
    rw [aspect_withAspect] at hx
    split at hx
    · next h =>
      subst hx
      cases ha
      exact .inr ⟨rfl, Nat.le_of_eq h.symm⟩
    · exact .inl ⟨l, hx, rfl⟩
  history := ⟨[], by simp, rfl⟩

theorem beside_withDomain {label : String} {mode : DomainMode} (hm : mode.Fresh) (hw : w.Sound) :
    w.Beside (w.withDomain { label, mode }) where
  grows := grows_withDomain _
  sound := sound_withDomain hm hw
  tickets := rfl
  passages := rfl
  isLock _ := rfl
  locks {x l} hx := .inl ⟨l, hx, rfl⟩
  history := ⟨[], by simp, rfl⟩

theorem beside_withStore {s : Store} (hid : s.id = .drawn w.stores.next)
    (ha : s.arena.toList = []) (hd : w.Offers s.affinity) (hw : w.Sound) :
    w.Beside (w.withStore s) where
  grows := grows_withStore s
  sound := sound_withStore hid ha hd hw
  tickets := rfl
  passages := rfl
  isLock _ := rfl
  locks {x l} hx := .inl ⟨l, hx, rfl⟩
  history := ⟨[], by simp, rfl⟩

theorem beside_withItem {i : Item} (ho : ∃ s < w.stores.next, i.descriptor.store = .drawn s)
    (hc : w.Has i.chain) (hd : w.Offers i.affinity) (hw : w.Sound) :
    w.Beside (w.withItem i) where
  grows := grows_withItem i
  sound := sound_withItem ho hc hd hw
  tickets := rfl
  passages := rfl
  isLock _ := rfl
  locks {x l} hx := .inl ⟨l, hx, rfl⟩
  history := ⟨[_], by simp [Happening.ticket?], rfl⟩

theorem beside_rename {f : Names → Names} (hp : (f w.names).passages = w.names.passages)
    (hn : w.names.Valid w → (f w.names).Valid w) (hw : w.Sound) :
    w.Beside { w with names := f w.names } where
  grows := grows_rename
  sound := sound_rename hn hw
  tickets := rfl
  passages := hp
  isLock _ := rfl
  locks {x l} hx := .inl ⟨l, hx, rfl⟩
  history := ⟨[], by simp, rfl⟩

end World

theorem passes_calm : (passes 0).Calm where
  sound hw := World.Orderly.sound hw
  grows h := World.Proceeds.grows h
  quiet h hw := (h.beside hw.sound).holds 0 hw
  stuck _ := {
    grows := .refl _
    isLock := fun _ => rfl
    frame := fun _ _ _ ho => ⟨rfl, ho⟩
    closed := fun h => absurd rfl h
    raised := nofun }
  newStore hid ha hd := Engine.keepsAt_of_eq rfl fun hw =>
    (World.beside_withStore hid ha hd hw.sound).holds 0 hw
  rename hp hn _ hw := (World.beside_rename hp hn (World.Orderly.sound hw)).holds 0 hw
  newItem hs hid hc hd _ _ := Engine.keepsAt_of_eq rfl fun hw =>
    (World.beside_withItem ⟨_, hs, hid⟩ hc hd hw.sound).holds 0 hw

theorem panic_keeps_passes (text : String) : (Engine.panic text).Keeps (passes 0) := by
  intro w hw
  unfold Engine.panic
  split
  · exact ⟨hw, .refl⟩
  · have h := (World.beside_raise text hw.sound).holds 0 hw
    exact ⟨h.1, h.2.grows, h.2.isLock, h.2.frame, fun _ => h.2.closed nofun,
      fun _ => ⟨[.raised text], text, rfl, by simp⟩⟩

end GuardedStore
