import GuardedStore.Proofs.Run.Guided

/-!
Laws that guards are no concern of.

What is done to ask aspects and to tell them comes down to changes of aspects, marks in the history
and calls of scripts. A law that allows such changes is kept by every pass through a chain if the
scripts keep it.
-/
namespace GuardedStore

namespace World

/-- Only aspects, passes and what is known of them have changed. -/
structure Guarding (w w' : World) : Prop where
  items : w'.items = w.items
  aspects : w'.aspects.next = w.aspects.next
  domains : w'.domains = w.domains
  stores : w'.stores = w.stores
  tickets : w.tickets ≤ w'.tickets
  unwinding : w'.unwinding = w.unwinding
  held : w'.held = w.held
  storeNames : w'.names.stores = w.names.stores
  names : w.names.Valid w → w'.names.Valid w'
  history : ∃ marks, (∀ h ∈ marks, h.ofGuards) ∧ w'.history = marks ++ w.history

theorem Guarding.of_names {w w' : World} (names : w'.names = w.names) (items : w'.items = w.items)
    (aspects : w'.aspects.next = w.aspects.next) (domains : w'.domains = w.domains)
    (stores : w'.stores = w.stores) (tickets : w.tickets ≤ w'.tickets)
    (unwinding : w'.unwinding = w.unwinding)
    (history : ∃ marks, (∀ h ∈ marks, h.ofGuards) ∧ w'.history = marks ++ w.history)
    (held : w'.held = w.held := by rfl) : w.Guarding w' where
  items := items
  aspects := aspects
  domains := domains
  stores := stores
  tickets := tickets
  unwinding := unwinding
  held := held
  storeNames := by rw [names]
  names h := names ▸ h.mono (Nat.le_of_eq (by rw [domains]))
    (Nat.le_of_eq (by rw [stores])) (Nat.le_of_eq aspects.symm)
  history := history

theorem guarding_record {h : Happening} (hh : h.ofGuards) (w : World) :
    w.Guarding { w with history := h :: w.history } :=
  .of_names rfl rfl rfl rfl rfl (Nat.le_refl _) rfl ⟨[h], by simpa using hh, rfl⟩

theorem Guarding.sound {w w' : World} (h : w.Guarding w') (hw : w.Sound) : w'.Sound where
  ids {s} hs := by
    simp only [store, h.stores] at hs ⊢
    exact hw.ids hs
  owners {i} hi := by
    simp only [Owns, item, h.items, h.stores] at hi ⊢
    exact hw.owners hi
  arenas {s i} hi := by
    simp only [Owns, store, item, h.stores, h.items] at hi ⊢
    exact hw.arenas hi
  chains {i a} ha := by
    simp only [item, h.items, h.aspects] at ha ⊢
    exact hw.chains ha
  storeAffinities {s d} hd := by
    simp only [store, h.stores, h.domains] at hd ⊢
    exact hw.storeAffinities hd
  itemAffinities {i d} hd := by
    simp only [item, h.items, h.domains] at hd ⊢
    exact hw.itemAffinities hd
  subscribers {d source s} hs := by
    simp only [domain, h.domains, h.stores] at hs ⊢
    exact hw.subscribers hs
  names := h.names hw.names

theorem Guarding.grows {w w' : World} (h : w.Guarding w') : w.Grows w' where
  items := Nat.le_of_eq (by rw [h.items])
  aspects := Nat.le_of_eq h.aspects.symm
  domains := Nat.le_of_eq (by rw [h.domains])
  stores := Nat.le_of_eq (by rw [h.stores])
  tickets := h.tickets
  history := by
    obtain ⟨marks, -, hh⟩ := h.history
    exact ⟨marks, hh.symm⟩
  descriptor _ := by rw [item, item, h.items]
  chain _ := by rw [item, item, h.items]
  id _ := by rw [store, store, h.stores]
  kind _ := by rw [domain, domain, h.domains]

end World

/-- The law allows whatever guards do of themselves, and waiting. -/
structure Law.Plain (L : Law) : Prop where
  sound {w} : L.inv w → w.Sound
  grows {w e w'} : L.rel w e w' → w.Grows w'
  guarding {w w' : World} : w.Guarding w' → L.inv w → L.Holds w .done w'
  stuck {w} : L.inv w → L.rel w .stuck w

theorem Happening.ofGuards_of_ofAspect {h : Happening} (hh : h.ofAspect) : h.ofGuards := by
  cases h with
  | hook | notice => exact hh
  | _ => cases hh

/-- Whatever an aspect does of itself is what guards do. -/
theorem Law.Plain.reforms {L : Law} (p : L.Plain) : L.Reforms fun _ _ => True where
  stuck := p.stuck
  reform _ _ := p.guarding (.of_names rfl rfl rfl rfl rfl (Nat.le_refl _) rfl ⟨[], by simp, rfl⟩)
  note hh := p.guarding (World.guarding_record (Happening.ofGuards_of_ofAspect hh) _)

namespace Engine

variable {call : Nat → Engine Unit} {L : Law} (p : L.Plain) (hc : ∀ r, (call r).Keeps L)

section Marks

include p

theorem mark_keeps {h : Happening} (hh : h.ofGuards) : (record h).Keeps L :=
  fun w => keepsAt_modify (p.guarding (World.guarding_record hh w))

theorem newTicket_keeps : newTicket.Keeps L :=
  fun _ => keepsAt_of_eq rfl
    (p.guarding (.of_names rfl rfl rfl rfl rfl (Nat.le_succ _) rfl ⟨[], by simp, rfl⟩))

end Marks

section Calls

include p hc

theorem ask_keeps (aspect : Nat) (phase : Phase) (access : Access) :
    (ask call aspect phase access).Keeps L :=
  fun _ => (answer_reforms p.reforms hc trivial phase access).bind fun _ v _ _ =>
    (mark_keeps p rfl).bind (fun _ => keeps_pure _) v

theorem tell_keeps (aspect : Nat) (phase : Phase) (access : Access) (permitted : Bool) :
    (tell call aspect phase access permitted).Keeps L :=
  (mark_keeps p rfl).bind fun _ _ => settle_reforms p.reforms hc trivial phase access permitted

/-- Whatever the aspects are, they may be asked and told. -/
theorem guides : Guides call L fun _ _ => True where
  sound := p.sound
  grows := p.grows
  stuck := p.stuck
  still _ _ _ := trivial
  ask phase access _ := ask_keeps p hc _ phase access _
  tell phase access permitted _ := tell_keeps p hc _ phase access permitted _
  begin chain phase access _ := p.guarding (.of_names rfl rfl rfl rfl rfl (Nat.le_succ _) rfl
    ⟨[_], by simp [Happening.ofGuards], rfl⟩)
  mark hh := p.guarding (World.guarding_record (Happening.ofGuards_of_ofEnd hh) _)
  visited _ _ := p.guarding (World.guarding_record rfl _)
  visit _ _ _ _ := trivial
  held _ _ _ := trivial
  passing hf := p.guarding {
    items := rfl
    aspects := rfl
    domains := rfl
    stores := rfl
    tickets := Nat.le_refl _
    unwinding := rfl
    held := rfl
    storeNames := rfl
    names := fun hn => { hn with
      passages := fun {name q a} hq ha => by
        rcases hf hq with h | h
        · exact hn.passages h ha
        · exact h.1 a ha }
    history := ⟨[], by simp, rfl⟩ }

theorem visit_ask_keeps (aspect : Nat) (phase : Phase) (access : Access) :
    (record (.visited [aspect]) >>= fun _ => ask call aspect phase access).Keeps L :=
  (mark_keeps p rfl).bind fun _ => ask_keeps p hc aspect phase access

theorem visit_tell_keeps (aspect : Nat) (phase : Phase) (access : Access) (permitted : Bool) :
    (record (.visited [aspect]) >>= fun _ =>
      tell call aspect phase access permitted).Keeps L :=
  (mark_keeps p rfl).bind fun _ => tell_keeps p hc aspect phase access permitted

theorem leave_keeps (pass : Pass) : (leave call pass).Keeps L :=
  fun _ => leave_guided (guides p hc) fun _ _ => trivial

theorem proceed_keeps (aspects : List Nat) (pass : Pass) : (proceed call pass aspects).Keeps L :=
  fun _ => proceed_guided (guides p hc) (fun _ _ => trivial) fun _ _ => trivial

theorem enter_keeps (chain : List Nat) (phase : Phase) (access : Access) :
    (enter call chain phase access).Keeps L :=
  fun _ => enter_guided (guides p hc) phase access fun _ _ => trivial

theorem readWithin_keeps
    (hr : ∀ item access passes, (record (.concluded item access (.returned passes))).Keeps L)
    (item retries : Nat) : (readWithin call item retries).Keeps L :=
  fun _ => readWithin_guided (guides p hc) retries (hr item) fun _ _ _ _ => trivial

theorem write_keepsAt {w : World} {item : Nat} (value : Value)
    (hs : ∀ pass v, enter call (w.item item).chain .write
        { descriptor := (w.item item).descriptor, value } w = (.done pass, v) →
      L.Holds w .done v → (storeValue call item pass.access).KeepsAt L v) :
    (write call item value).KeepsAt L w :=
  write_guided (guides p hc) value (fun _ _ => trivial) hs

/-- A pass that was begun is known by its access. -/
theorem began_of_enter {chain : List Nat} {phase : Phase} {access : Access} {pass : Pass}
    {w v : World} (hw : L.inv w) (h : enter call chain phase access w = (.done pass, v)) :
    .began chain phase pass.access ∈ v.history ∧
      pass.access.descriptor = access.descriptor ∧ pass.access.value = access.value := by
  have hk := ((newTicket_keeps p).bind fun t =>
    mark_keeps p (h := .began chain phase { access with ticket := t }) rfl) w
  have hp := (proceed_keeps p hc chain _ _).holds (hk.holds hw rfl).1 h
  rw [access_of_proceed h]
  exact ⟨(p.grows hp.2).history.subset List.mem_cons_self, rfl, rfl⟩

/-- All who are asked admit a pass that nobody refuses. -/
theorem asked_of_proceed {aspects : List Nat} : ∀ {pass pass' : Pass} {w v : World}, L.inv w →
    proceed call pass aspects w = (.done pass', v) → pass'.refusedBy = none → ∃ asked,
      v.history = asked ++ w.history ∧
        (aspects.map (.admitted · pass.phase pass.access true)).reverse.Sublist asked := by
  induction aspects with
  | nil =>
    rintro pass pass' w v - ⟨⟩ -
    exact ⟨[], rfl, .slnil⟩
  | cons x aspects ih =>
    intro pass pass' w v hw h hn
    obtain ⟨b, u, ha, h⟩ := proceed_cons_done h
    obtain ⟨b', z, hz, hm⟩ := done_of_bind (m := answer call x pass.phase pass.access) ha
    cases hm
    have hk := (answer_reforms p.reforms hc (x := x) trivial pass.phase pass.access).holds hw hz
    have hk' := (ask_keeps p hc x pass.phase pass.access w).holds hw ha
    cases b with
    | false =>
      obtain ⟨rfl, -⟩ := h
      cases hn
    | true =>
      obtain ⟨asked, hv, hs⟩ := ih hk'.1 h hn
      obtain ⟨newer, hz⟩ := (p.grows hk.2).history
      refine ⟨asked ++ .admitted x pass.phase pass.access true :: newer, ?_, ?_⟩
      · rw [hv, List.append_assoc]
        exact congrArg (asked ++ Happening.admitted x pass.phase pass.access true :: ·) hz.symm
      · rw [List.map_cons, List.reverse_cons]
        exact hs.append (.cons_cons _ (List.nil_sublist newer))

theorem asked_of_enter {chain : List Nat} {phase : Phase} {access : Access} {pass : Pass}
    {w v : World} (hw : L.inv w) (h : enter call chain phase access w = (.done pass, v))
    (hn : pass.refusedBy = none) : ∃ asked,
      v.history = asked ++ .began chain phase pass.access :: w.history ∧
        (chain.map (.admitted · phase pass.access true)).reverse.Sublist asked := by
  have hk := ((newTicket_keeps p).bind fun t =>
    mark_keeps p (h := .began chain phase { access with ticket := t }) rfl) w
  rw [access_of_proceed h]
  exact asked_of_proceed p hc (hk.holds hw rfl).1 h hn

/-- Whoever refuses a pass is one of those who are asked. -/
theorem refused_of_proceed {aspects : List Nat} : ∀ {pass pass' : Pass} {w v : World}, L.inv w →
    proceed call pass aspects w = (.done pass', v) → pass.refusedBy = none →
      ∀ x, pass'.refusedBy = some x →
        x ∈ aspects ∧ .admitted x pass.phase pass.access false ∈ v.history := by
  induction aspects with
  | nil =>
    rintro pass pass' w v - ⟨⟩ hn x hx
    cases hn.symm.trans hx
  | cons y aspects ih =>
    intro pass pass' w v hw h hn x hx
    obtain ⟨b, u, ha, h⟩ := proceed_cons_done h
    have hu := (ask_keeps p hc y pass.phase pass.access w).holds hw ha
    cases b with
    | true =>
      obtain ⟨hm, hr⟩ := ih hu.1 h hn x hx
      exact ⟨List.mem_cons_of_mem _ hm, hr⟩
    | false =>
      obtain ⟨rfl, rfl⟩ := h
      cases hx
      obtain ⟨_, _, -, hm⟩ := done_of_bind (m := answer call y pass.phase pass.access) ha
      cases hm
      exact ⟨List.mem_cons_self, List.mem_cons_self⟩

theorem refused_of_enter {chain : List Nat} {phase : Phase} {access : Access} {pass : Pass}
    {w v : World} (hw : L.inv w) (h : enter call chain phase access w = (.done pass, v)) {x : Nat}
    (hx : pass.refusedBy = some x) :
    x ∈ chain ∧ .admitted x phase pass.access false ∈ v.history := by
  have hk := ((newTicket_keeps p).bind fun t =>
    mark_keeps p (h := .began chain phase { access with ticket := t }) rfl) w
  rw [access_of_enter h]
  exact refused_of_proceed p hc (hk.holds hw rfl).1 h rfl x hx

end Calls

end Engine

namespace Performing

variable {call : Nat → Engine Unit} {L : Law} (p : L.Plain) (hc : ∀ r, (call r).Keeps L)

include p hc

theorem enter_plain (chain : String) (phase : Phase) (passage : Option String)
    (plan : AccessPlan) : (enter call chain phase passage plan).run.Keeps L :=
  enter_guided (Engine.guides p hc) chain phase passage plan

theorem exit_plain (passage : String) : (exit call passage).run.Keeps L :=
  exit_guided (Engine.guides p hc) passage

theorem chainWait_plain (hm : ∀ muted, (Engine.modify fun w => { w with muted }).Keeps L)
    (chain : String) (phase : Phase) (plan : AccessPlan) :
    (chainWait call chain phase plan).run.Keeps L :=
  chainWait_guided (Engine.guides p hc) hm chain phase plan

end Performing

end GuardedStore
