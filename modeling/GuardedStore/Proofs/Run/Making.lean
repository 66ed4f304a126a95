import GuardedStore.Proofs.Run.Admits

/-!
Making things: what is new is sound, and what was there before stays as it is.
-/
namespace GuardedStore

namespace World

variable {w w' : World}

theorem Idle.sound (h : w.Idle w') (hw : w.Sound) : w'.Sound where
  ids {s} hs := by
    simp only [store, h.stores] at hs ⊢
    exact hw.ids hs
  owners {i} hi := by
    simp only [Owns, item, h.items, h.stores] at hi ⊢
    exact hw.owners hi
  arenas {s i} hi := by
    simp only [Owns, store, item, h.stores, h.items] at hi ⊢
    exact hw.arenas hi
  chains {i a} ha := by
    simp only [item, h.items, h.aspects] at ha ⊢
    exact hw.chains ha
  storeAffinities {s d} hd := by
    simp only [store, h.stores, h.domains] at hd ⊢
    exact hw.storeAffinities hd
  itemAffinities {i d} hd := by
    simp only [item, h.items, h.domains] at hd ⊢
    exact hw.itemAffinities hd
  subscribers {d source s} hs := by
    simp only [domain, h.domains, h.stores] at hs ⊢
    exact hw.subscribers hs
  names := h.names hw.names

theorem Idle.grows (h : w.Idle w') : w.Grows w' where
  items := Nat.le_of_eq (by rw [h.items])
  aspects := Nat.le_of_eq (by rw [h.aspects])
  domains := Nat.le_of_eq (by rw [h.domains])
  stores := Nat.le_of_eq (by rw [h.stores])
  tickets := Nat.le_of_eq (by rw [h.tickets])
  history := by
    obtain ⟨notes, -, hh⟩ := h.history
    exact ⟨notes, hh.symm⟩
  descriptor _ := by rw [item, item, h.items]
  chain _ := by rw [item, item, h.items]
  id _ := by rw [store, store, h.stores]
  kind _ := by rw [domain, domain, h.domains]

/-- Names may be given anew. -/
theorem sound_rename {f : Names → Names} (hn : w.names.Valid w → (f w.names).Valid w)
    (hw : w.Sound) : World.Sound { w with names := f w.names } :=
  { hw with
    names := (hn hw.names).mono (Nat.le_refl _) (Nat.le_refl _) (Nat.le_refl _) }

theorem grows_rename {f : Names → Names} : w.Grows { w with names := f w.names } :=
  { Grows.refl w with }

/-- The world with a panic on its way out. -/
def raise (text : String) (w : World) : World :=
  { w with unwinding := true, history := .raised text :: w.history }

theorem sound_raise (text : String) (hw : w.Sound) : (w.raise text).Sound :=
  { hw with
    names := hw.names.mono (Nat.le_refl _) (Nat.le_refl _) (Nat.le_refl _) }

theorem grows_raise (text : String) : w.Grows (w.raise text) :=
  { Grows.refl w with history := ⟨[_], rfl⟩ }

theorem sound_empty : Sound {} where
  ids h := by cases h
  owners h := by cases h
  arenas h := by cases h
  chains h := by cases h
  storeAffinities h := by cases h
  itemAffinities h := by cases h
  subscribers h := by cases h
  names := {
    domains := fun h => by cases h
    stores := fun h => by cases h
    aspects := fun h => by cases h
    chains := fun h => by cases h
    passages := fun h => by cases h }

/-- Whether a panic is on its way out is nobody's business. -/
theorem sound_unwinding (unwinding : Bool) (hw : w.Sound) : World.Sound { w with unwinding } :=
  { hw with
    names := hw.names.mono (Nat.le_refl _) (Nat.le_refl _) (Nat.le_refl _) }

def withAspect (a : Aspect Nat) (w : World) : World :=
  { w with aspects := w.aspects.push a }

theorem aspect_withAspect (a : Aspect Nat) (x : Nat) :
    (w.withAspect a).aspect x = if x = w.aspects.next then a else w.aspect x :=
  w.aspects.get_push x a

theorem sound_withAspect (a : Aspect Nat) (hw : w.Sound) : (w.withAspect a).Sound :=
  { hw with
    chains := fun h => Nat.lt_succ_of_lt (hw.chains h)
    names := hw.names.mono (Nat.le_refl _) (Nat.le_refl _) (Nat.le_succ _) }

theorem grows_withAspect (a : Aspect Nat) : w.Grows (w.withAspect a) :=
  { Grows.refl w with aspects := Nat.le_succ _ }

theorem sound_setAspect (x : Nat) (a : Aspect Nat) {w : World} (hw : w.Sound) :
    (w.setAspect x a).Sound :=
  { hw with
    names := hw.names.mono (Nat.le_refl _) (Nat.le_refl _) (Nat.le_refl _) }

theorem grows_setAspect (x : Nat) (a : Aspect Nat) (w : World) : w.Grows (w.setAspect x a) :=
  { Grows.refl w with }

/-- The world with one more pass begun. -/
def begin (chain : List Nat) (phase : Phase) (access : Access) (w : World) : World :=
  { w with tickets := w.tickets + 1 }.mark
    (.began chain phase { access with ticket := w.tickets + 1 })

theorem sound_begin (chain : List Nat) (phase : Phase) (access : Access) {w : World}
    (hw : w.Sound) : (w.begin chain phase access).Sound :=
  { hw with
    names := hw.names.mono (Nat.le_refl _) (Nat.le_refl _) (Nat.le_refl _) }

theorem grows_begin (chain : List Nat) (phase : Phase) (access : Access) (w : World) :
    w.Grows (w.begin chain phase access) :=
  { Grows.refl w with tickets := Nat.le_succ _, history := ⟨[_], rfl⟩ }

def withDomain (d : Domain) (w : World) : World :=
  { w with domains := w.domains.push d }

theorem domain_withDomain (d : Domain) (r : Nat) :
    (w.withDomain d).domain r = if r = w.domains.next then d else w.domain r :=
  w.domains.get_push r d

theorem subscribers_fresh {label : String} {mode : DomainMode} (hm : mode.Fresh)
    (source : Source) : Domain.subscribers { label, mode } source = [] := by
  cases hm <;> rfl

theorem sound_withDomain {label : String} {mode : DomainMode} (hm : mode.Fresh) (hw : w.Sound) :
    (w.withDomain { label, mode }).Sound where
  ids := hw.ids
  owners := hw.owners
  arenas := hw.arenas
  chains := hw.chains
  storeAffinities h := Nat.lt_succ_of_lt (hw.storeAffinities h)
  itemAffinities h := Nat.lt_succ_of_lt (hw.itemAffinities h)
  subscribers {d source s} h := by
    rw [domain_withDomain] at h
    split at h
    · rw [subscribers_fresh hm] at h
      cases h
    · exact hw.subscribers h
  names := hw.names.mono (Nat.le_succ _) (Nat.le_refl _) (Nat.le_refl _)

theorem grows_withDomain (d : Domain) : w.Grows (w.withDomain d) :=
  { Grows.refl w with
    domains := Nat.le_succ _
    kind := fun {r} hr => by
      rw [domain_withDomain, if_neg (Nat.ne_of_lt hr)] }

def withStore (s : Store) (w : World) : World :=
  { w with stores := w.stores.push s }

theorem store_withStore (s : Store) (r : Nat) :
    (w.withStore s).store r = if r = w.stores.next then s else w.store r :=
  w.stores.get_push r s

theorem sound_withStore {s : Store} (hid : s.id = .drawn w.stores.next)
    (ha : s.arena.toList = []) (hd : w.Offers s.affinity) (hw : w.Sound) :
    (w.withStore s).Sound where
  ids {r} hr := by
    rw [store_withStore]
    split
    · next h => rw [hid, h]
    · next h => exact hw.ids (Nat.lt_of_le_of_ne (Nat.le_of_lt_succ hr) h)
  owners {i} hi := by
    obtain ⟨r, hr, ho⟩ := hw.owners hi
    exact ⟨r, Nat.lt_succ_of_lt hr, ho⟩
  arenas {r i} h := by
    rw [store_withStore] at h
    split at h
    · rw [ha] at h
      cases h
    · exact hw.arenas h
  chains := hw.chains
  storeAffinities {r d} h := by
    rw [store_withStore] at h
    split at h
    · exact hd d h
    · exact hw.storeAffinities h
  itemAffinities := hw.itemAffinities
  subscribers h := Nat.lt_succ_of_lt (hw.subscribers h)
  names := hw.names.mono (Nat.le_refl _) (Nat.le_succ _) (Nat.le_refl _)

theorem grows_withStore (s : Store) : w.Grows (w.withStore s) :=
  { Grows.refl w with
    stores := Nat.le_succ _
    id := fun {r} hr => by
      rw [store_withStore, if_neg (Nat.ne_of_lt hr)] }

def withItem (i : Item) (w : World) : World :=
  { w with items := w.items.push i, history := .made w.items.next i :: w.history }

theorem item_withItem (i : Item) (r : Nat) :
    (w.withItem i).item r = if r = w.items.next then i else w.item r :=
  w.items.get_push r i

theorem grows_withItem (i : Item) : w.Grows (w.withItem i) :=
  { Grows.refl w with
    items := Nat.le_succ _
    history := ⟨[_], rfl⟩
    descriptor := fun {r} hr => by
      rw [item_withItem, if_neg (Nat.ne_of_lt hr)]
    chain := fun {r} hr => by
      rw [item_withItem, if_neg (Nat.ne_of_lt hr)] }

theorem sound_withItem {i : Item} (ho : ∃ s < w.stores.next, i.descriptor.store = .drawn s)
    (hc : w.Has i.chain) (hd : w.Offers i.affinity) (hw : w.Sound) : (w.withItem i).Sound where
  ids := hw.ids
  owners {r} hr := by
    rcases Nat.lt_succ_iff_lt_or_eq.mp hr with hlt | rfl
    · obtain ⟨s, hs, hr⟩ := hw.owners hlt
      exact ⟨s, hs, hr.mono (grows_withItem i)⟩
    · obtain ⟨s, hs, hi⟩ := ho
      exact ⟨s, hs, Nat.lt_succ_self _, by rw [item_withItem, if_pos rfl, hi]⟩
  arenas h := (hw.arenas h).mono (grows_withItem i)
  chains {r a} h := by
    rw [item_withItem] at h
    split at h
    · exact hc a h
    · exact hw.chains h
  storeAffinities := hw.storeAffinities
  itemAffinities {r d} h := by
    rw [item_withItem] at h
    split at h
    · exact hd d h
    · exact hw.itemAffinities h
  subscribers := hw.subscribers
  names := hw.names.mono (Nat.le_refl _) (Nat.le_refl _) (Nat.le_refl _)

/-- The world with a value stored in an item. -/
def storing (item : Nat) (value : Value) (w : World) : World :=
  w.modifyItem item fun i => i.store value

theorem descriptor_storing (r : Nat) (v : Value) (i : Nat) :
    ((w.storing r v).item i).descriptor = (w.item i).descriptor := by
  rw [storing, item_modifyItem]
  split
  · next h => rw [h]; rfl
  · rfl

theorem sound_storing (r : Nat) (v : Value) (hw : w.Sound) : (w.storing r v).Sound where
  ids := hw.ids
  owners {i} hi := by
    simp only [Owns, descriptor_storing]
    exact hw.owners hi
  arenas {s i} hi := by
    rw [Owns, descriptor_storing]
    exact hw.arenas hi
  chains {i a} h := by
    rw [storing, item_modifyItem] at h
    split at h
    · exact hw.chains h
    · exact hw.chains h
  storeAffinities := hw.storeAffinities
  itemAffinities {i d} h := by
    rw [storing, item_modifyItem] at h
    split at h
    · exact hw.itemAffinities h
    · exact hw.itemAffinities h
  subscribers := hw.subscribers
  names := hw.names.mono (Nat.le_refl _) (Nat.le_refl _) (Nat.le_refl _)

theorem grows_storing (r : Nat) (v : Value) : w.Grows (w.storing r v) :=
  { Grows.refl w with
    descriptor := fun {i} _ => descriptor_storing r v i
    chain := fun {i} _ => by
      rw [storing, item_modifyItem]
      split
      · next h => rw [h]; rfl
      · rfl }

/-- The world in which a value was stored in an item and the trigger for it has been requested, but
not passed on. -/
def issuing (item : Nat) (a : Access) (w : World) : World :=
  let i := (w.storing item a.value).item item
  { w.storing item a.value with
    history := .requested (.item item) i.affinity ⟨i.source, i.writes⟩ ::
      .notice (.writeStored i.descriptor i.writes) :: .stored item a :: w.history }

theorem item_issuing (item : Nat) (a : Access) (i : Nat) :
    (w.issuing item a).item i = if i = item then (w.item item).store a.value else w.item i :=
  w.item_modifyItem item i _

theorem history_issuing (item : Nat) (a : Access) :
    (w.issuing item a).history =
      .requested (.item item) (w.item item).affinity
          ⟨(w.item item).source, (w.item item).writes + 1⟩ ::
        .notice (.writeStored (w.item item).descriptor ((w.item item).writes + 1)) ::
          .stored item a :: w.history := by
  have h : (w.storing item a.value).item item = (w.item item).store a.value := by
    rw [storing, item_modifyItem, if_pos rfl]
  simp only [issuing, h]
  rfl

theorem sound_issuing (item : Nat) (a : Access) (hw : w.Sound) : (w.issuing item a).Sound :=
  { sound_storing item a.value hw with
    names := hw.names.mono (Nat.le_refl _) (Nat.le_refl _) (Nat.le_refl _) }

theorem grows_issuing (item : Nat) (a : Access) : w.Grows (w.issuing item a) :=
  { grows_storing item a.value with history := ⟨[_, _, _], rfl⟩ }

/-- The passages are named anew. -/
def passing (f : Table String Pass → Table String Pass) (w : World) : World :=
  { w with names := { w.names with passages := f w.names.passages } }

section Passages

variable {f : Table String Pass → Table String Pass} {passage name : String} {p q : Pass}

theorem grows_passing : w.Grows (w.passing f) :=
  { Grows.refl w with }

theorem sound_passing (hf : ∀ {name q}, (f w.names.passages).find? name = some q → w.Has q.entered)
    (hw : w.Sound) : (w.passing f).Sound :=
  { hw with
    names := {
      domains := hw.names.domains
      stores := hw.names.stores
      aspects := hw.names.aspects
      chains := hw.names.chains
      passages := fun hq ha => hf hq _ ha } }

theorem find?_erase_some
    (h : (w.names.passages.erase passage).find? name = some q) :
    name ≠ passage ∧ w.names.passages.find? name = some q := by
  rw [Table.find?_erase] at h
  split at h
  · cases h
  · next hne => exact ⟨hne, h⟩

theorem find?_put_some
    (h : (w.names.passages.put passage p).find? name = some q) :
    name = passage ∧ p = q ∨ name ≠ passage ∧ w.names.passages.find? name = some q := by
  rw [Table.find?_put] at h
  split at h
  · next he => exact .inl ⟨he, Option.some.inj h⟩
  · next hne => exact .inr ⟨hne, h⟩

end Passages

end World

/-- What is left to do once a value is stored is to pass the trigger for it on. -/
theorem Engine.storeValue_keepsAt {call : Nat → Engine Unit} {L : Law} {item : Nat} {a : Access}
    {w : World} (h : L.inv w → L.Holds w .done (w.issuing item a))
    (hf : (forward call ((w.issuing item a).item item).affinity
      ⟨((w.issuing item a).item item).source, ((w.issuing item a).item item).writes⟩).KeepsAt L
        (w.issuing item a)) : (storeValue call item a).KeepsAt L w :=
  fun hw => (h hw).done_trans hw ((hf.bind fun _ v _ _ => keeps_pure () v) (h hw).1)

end GuardedStore
