import GuardedStore.Proofs.Mirror.Law

/-!
Accesses to items, with and without guards.

From a world at rest a pass finds every lock of its chain free, takes them all and gives them back,
and what an access does between the two runs no script. So every access is permitted, comes to its
end, and leaves behind a world at rest in which only counts and marks tell that it was guarded.
-/
namespace GuardedStore

namespace World

variable {w v : World} {aspects : List Nat} {a ticket : Nat}

theorem Locked.take (hl : w.Locked aspects ticket) (ha : (v.aspect a).HeldBy (some ticket))
    (hv : ∀ b ≠ a, v.aspect b = w.aspect b) : v.Locked (a :: aspects) ticket := by
  intro b
  by_cases hb : b = a
  · simpa [hb] using ha
  · simpa [hb, hv b hb] using hl b

theorem Locked.give (hl : w.Locked (a :: aspects) ticket) (hn : a ∉ aspects)
    (ha : (v.aspect a).HeldBy none) (hv : ∀ b ≠ a, v.aspect b = w.aspect b) :
    v.Locked aspects ticket := by
  intro b
  by_cases hb : b = a
  · simpa [hb, hn] using ha
  · simpa [hb, hv b hb] using hl b

/-- The world is in the course of a pass that everyone asked has admitted, and no other. -/
structure During (w : World) (p : Pass) : Prop extends w.Tame where
  locked : w.Locked p.entered p.access.ticket
  entered : p.entered.Nodup
  admitted : p.refusedBy = none

end World

namespace Engine

open World

variable (call : Nat → Engine Unit) {w : World}

/-- A free aspect admits whoever asks, and is then held by them. -/
theorem answer_unseen {a : Nat} (phase : Phase) {access : Access} (ha : (w.aspect a).HeldBy none) :
    ∃ v, answer call a phase access w = (.done true, v) ∧ w.Unseen v ∧
      (v.aspect a).HeldBy (some access.ticket) ∧ ∀ b ≠ a, v.aspect b = w.aspect b := by
  unfold answer
  rw [bind_of_done (m := get) rfl]
  cases hx : w.aspect a with
  | audit x => exact ⟨w, rfl, .refl w, by rw [hx]; trivial, fun _ _ => rfl⟩
  | plain name => exact ⟨w, rfl, .refl w, by rw [hx]; trivial, fun _ _ => rfl⟩
  | lock l =>
    rw [hx] at ha
    let taken : Aspect Nat := .lock { l with holder := some access.ticket }
    refine ⟨w.setAspect a taken, ?_, unseen_setAspect w a taken, ?_, fun b hb => ?_⟩
    · simp only [Lock.acquire, show l.holder = none from ha]
      rfl
    · rw [aspect_setAspect, if_pos rfl]
      rfl
    · rw [aspect_setAspect, if_neg hb]
  | validation x =>
    rw [hx] at ha
    exact ha.elim
  | probe x =>
    rw [hx] at ha
    exact ha.elim

theorem ask_unseen {a : Nat} {aspects : List Nat} (phase : Phase) {access : Access}
    (hl : w.Locked aspects access.ticket) (ha : a ∉ aspects) :
    ∃ v, ask call a phase access w = (.done true, v) ∧ w.Unseen v ∧
      v.Locked (a :: aspects) access.ticket := by
  obtain ⟨v, hv, hu, hx, ho⟩ := answer_unseen call phase (by simpa [ha] using hl a)
  refine ⟨v.mark (.admitted a phase access true), ?_, hu.trans (unseen_mark rfl v), hl.take hx ho⟩
  exact bind_of_done hv

theorem settle_unseen {a : Nat} (phase : Phase) {access : Access} (permitted : Bool)
    (ha : (w.aspect a).HeldBy (some access.ticket)) :
    ∃ v, settle call a phase access permitted w = (.done (), v) ∧ w.Unseen v ∧
      (v.aspect a).HeldBy none ∧ ∀ b ≠ a, v.aspect b = w.aspect b := by
  unfold settle
  rw [bind_of_done (m := get) rfl]
  cases hx : w.aspect a with
  | audit x =>
    let counted : Aspect Nat := .audit (x.count phase permitted)
    refine ⟨(w.setAspect a counted).mark (.notice (.audited phase access.descriptor permitted)), rfl,
      (unseen_setAspect w a counted).trans (unseen_mark rfl _), ?_, fun b hb => ?_⟩
    · show ((w.setAspect a counted).aspect a).HeldBy none
      rw [aspect_setAspect, if_pos rfl]
      trivial
    · show (w.setAspect a counted).aspect b = w.aspect b
      rw [aspect_setAspect, if_neg hb]
  | plain name => exact ⟨w, rfl, .refl w, by rw [hx]; trivial, fun _ _ => rfl⟩
  | lock l =>
    rw [hx] at ha
    let given : Aspect Nat := .lock { l with holder := none }
    refine ⟨w.setAspect a given, ?_, unseen_setAspect w a given, ?_, fun b hb => ?_⟩
    · simp only [Lock.release?, show l.holder = some access.ticket from ha]
      rfl
    · rw [aspect_setAspect, if_pos rfl]
      rfl
    · rw [aspect_setAspect, if_neg hb]
  | validation x =>
    rw [hx] at ha
    exact ha.elim
  | probe x =>
    rw [hx] at ha
    exact ha.elim

/-- Whoever is told gives back what the pass holds of them. -/
theorem tellAll_unseen (p : Pass) {aspects : List Nat} (hn : aspects.Nodup) :
    ∀ {w}, w.Locked aspects p.access.ticket → ∃ v, tellAll call p aspects w = (.done (), v) ∧
      w.Unseen v ∧ v.Locked [] p.access.ticket := by
  induction aspects with
  | nil => exact fun {w} hl => ⟨w, rfl, .refl w, hl⟩
  | cons a aspects ih =>
    intro w hl
    obtain ⟨ha, hn⟩ := List.nodup_cons.mp hn
    have hm := unseen_mark (h := .told a p.phase p.access p.permitted) rfl w
    obtain ⟨u, hu, hwu, hx, ho⟩ := settle_unseen call p.phase p.permitted
      (w := w.mark (.told a p.phase p.access p.permitted))
      (by simpa using hl a : (w.aspect a).HeldBy (some p.access.ticket))
    obtain ⟨v, hv, huv, hl'⟩ := ih hn (hl.give ha hx ho)
    have ht : tell call a p.phase p.access p.permitted w = (.done (), u) := hu
    exact ⟨v, (bind_of_done ht).trans hv, (hm.trans hwu).trans huv, hl'⟩

/-- Everybody along a chain that nobody uses admits the pass. -/
theorem proceed_unseen {chain : List Nat} : ∀ {p : Pass} {w}, (chain.reverse ++ p.entered).Nodup →
    w.Locked p.entered p.access.ticket → ∃ v,
      proceed call p chain w = (.done { p with entered := chain.reverse ++ p.entered }, v) ∧
      w.Unseen v ∧ v.Locked (chain.reverse ++ p.entered) p.access.ticket := by
  induction chain with
  | nil => exact fun {p w} _ hl => ⟨w, rfl, .refl w, hl⟩
  | cons a chain ih =>
    intro p w hn hl
    rw [List.reverse_cons, List.append_assoc, List.singleton_append] at hn ⊢
    have ha : a ∉ p.entered := (List.nodup_cons.mp (List.nodup_append.mp hn).2.1).1
    obtain ⟨u, hu, hwu, hlu⟩ := ask_unseen call p.phase hl ha
    obtain ⟨v, hv, huv, hlv⟩ := ih (p := { p with entered := a :: p.entered }) hn hlu
    refine ⟨v, ?_, hwu.trans huv, hlv⟩
    have ho : onUnwind (ask call a p.phase p.access) (abandon call p) w = (.done true, u) := by
      unfold onUnwind
      rw [hu]
    exact (bind_of_done ho).trans hv

variable {α β γ δ : Type}

/-- Both computations come to their end, the second one from the bare world, in worlds of which the
second is what the first comes to. -/
def Lockstep (m : Engine α) (m' : Engine β) (w : World) (Q : α → β → World → Prop) : Prop :=
  ∃ a b v, m w = (.done a, v) ∧ m' w.bare = (.done b, v.bare) ∧ Q a b v

theorem Lockstep.bind {m : Engine α} {m' : Engine β} {f : α → Engine γ} {f' : β → Engine δ}
    {Q : α → β → World → Prop} {T : γ → δ → World → Prop} (hm : m.Lockstep m' w Q)
    (hf : ∀ a b v, Q a b v → (f a).Lockstep (f' b) v T) : (m >>= f).Lockstep (m' >>= f') w T := by
  obtain ⟨a, b, v, he, he', h⟩ := hm
  obtain ⟨c, d, u, hu, hu', h⟩ := hf a b v h
  exact ⟨c, d, u, (bind_of_done he).trans hu, (bind_of_done he').trans hu', h⟩

theorem Lockstep.ensure {m : Engine α} {m' : Engine β} {c c' : Engine Unit}
    {Q T : α → β → World → Prop} (hm : m.Lockstep m' w Q)
    (hc : ∀ a b v, Q a b v → c.Lockstep c' v fun _ _ u => T a b u) :
    (ensure m c).Lockstep (ensure m' c') w T := by
  obtain ⟨a, b, v, he, he', h⟩ := hm
  obtain ⟨_, _, u, hu, hu', h⟩ := hc a b v h
  refine ⟨a, b, u, ?_, ?_, h⟩ <;> unfold Engine.ensure
  · rw [he]
    exact bind_of_done hu
  · rw [he']
    exact bind_of_done hu'

theorem lockstep_get_bind {f : World → Engine α} {f' : World → Engine β}
    {Q : α → β → World → Prop} (h : (f w).Lockstep (f' w.bare) w Q) :
    (get >>= f).Lockstep (get >>= f') w Q :=
  h

theorem Lockstep.mirrorsAt {m : Engine α} {m' : Engine β} {R : α → β → Prop}
    (h : w.Resting → m.Lockstep m' w fun a b v => R a b ∧ v.Resting) : m.MirrorsAt R m' w := by
  intro hw
  obtain ⟨a, b, v, he, he', hR, hv⟩ := h hw
  exact ⟨_, _, v, he, he', .done hR, hv⟩

/-- The pass through a chain where nobody is, and the pass through no chain at all. -/
theorem enter_lockstep (hw : w.Resting) {chain : List Nat} (hc : chain.Nodup) (phase : Phase)
    (access : Access) :
    (enter call chain phase access).Lockstep (enter call [] phase access) w fun p q v =>
      v.During p ∧ q = { p with entered := [] } ∧ v.items = w.items := by
  let a := { access with ticket := w.tickets + 1 }
  let u := ({ w with tickets := w.tickets + 1 } : World).mark (.began chain phase a)
  have hu : u.Tame := Tame.mark (w := { w with tickets := w.tickets + 1 }) { hw with } rfl
  have hn : (chain.reverse ++ []).Nodup := by
    rw [List.append_nil]
    exact (List.reverse_perm chain).nodup_iff.mpr hc
  obtain ⟨v, hv, huv, hl⟩ := proceed_unseen call (p := ⟨phase, a, [], none⟩) (w := u) hn
    (hw.locked _ : w.Locked [] _)
  refine ⟨_, ⟨phase, a, [], none⟩, v, hv, ?_, ⟨huv.tame hu, hl, hn, rfl⟩, rfl, huv.items⟩
  rw [huv.bare]
  rfl

theorem leave_lockstep {p : Pass} (hw : w.During p) :
    (leave call p).Lockstep (leave call { p with entered := [] }) w fun _ _ v => v.Resting := by
  obtain ⟨v, hv, hu, hl⟩ := tellAll_unseen call p hw.entered hw.locked
  refine ⟨(), (), v.mark (.left p.access true), ?_, ?_,
    ((hu.tame hw.toTame).mark rfl).resting hl⟩
  · have ho : onUnwind (tellAll call p p.entered) (record (.left p.access false)) w = (.done (), v) := by
      unfold onUnwind
      rw [hv]
    exact bind_of_done ho
  · show _ = (_, (v.mark (.left p.access true)).bare)
    rw [bare_mark, hu.bare]
    rfl

variable {call}

/-- From a tame world the computation comes to its end, the same with guards and without, and it is
not about aspects. -/
def SteadyAt (m : Engine α) (w : World) : Prop :=
  w.Tame → m.Lockstep m w fun a b v => a = b ∧ v.Tame ∧ v.aspects = w.aspects

def Steady (m : Engine α) : Prop :=
  ∀ w, m.SteadyAt w

theorem steady_pure (a : α) : (pure a : Engine α).Steady :=
  fun w hw => ⟨a, a, w, rfl, rfl, rfl, hw, rfl⟩

theorem SteadyAt.bind {m : Engine α} {f : α → Engine β} (hm : m.SteadyAt w)
    (hf : ∀ a, (f a).Steady) : (m >>= f).SteadyAt w := by
  intro hw
  refine (hm hw).bind ?_
  rintro a _ v ⟨rfl, hv, ha⟩
  obtain ⟨b, _, u, hu, hu', rfl, ht, hb⟩ := hf a v hv
  exact ⟨b, b, u, hu, hu', rfl, ht, hb.trans ha⟩

theorem Steady.bind {m : Engine α} {f : α → Engine β} (hm : m.Steady) (hf : ∀ a, (f a).Steady) :
    (m >>= f).Steady :=
  fun w => (hm w).bind hf

theorem steadyAt_get_bind {f : World → Engine α} (h : f w.bare = f w) (hf : (f w).SteadyAt w) :
    (get >>= f).SteadyAt w := by
  intro hw
  show (f w).Lockstep (f w.bare) w _
  rw [h]
  exact hf hw

theorem Steady.blind {m : Engine α} (hm : m.Steady) : m.Blind := by
  refine fun w => Lockstep.mirrorsAt fun hw => ?_
  obtain ⟨a, b, v, he, he', hab, hv, ha⟩ := hm w hw.toTame
  exact ⟨a, b, v, he, he', hab, { hv with free := fun x => by rw [aspect, ha]; exact hw.free x }⟩

theorem steady_record {h : Happening} (hh : h.outward) : (record h).Steady := by
  obtain ⟨hb, hr⟩ := Happening.outward_iff hh
  refine fun w hw => ⟨(), (), w.mark h, rfl, ?_, rfl, hw.mark hr, rfl⟩
  rw [bare_mark, hb]
  rfl

theorem steady_modifyDomain (r : Nat) {f : Domain → Domain} (hf : ∀ d, (f d).kind = d.kind) :
    (modifyDomain r f).Steady :=
  fun w hw => ⟨(), (), w.modifyDomain r f, rfl, rfl, rfl, hw.modifyDomain r hf, rfl⟩

theorem steady_modifyItem {r : Nat} {f : Item → Item}
    (hf : ∀ i, (f i).bare = f i.bare ∧ (f i).chain = i.chain) :
    (modify (World.modifyItem r f)).Steady :=
  fun w hw => ⟨(), (), w.modifyItem r f, rfl, by rw [w.bare_modifyItem r fun i => (hf i).1]; rfl,
    rfl, hw.modifyItem r fun i => (hf i).2, rfl⟩

/-- Where no domain delivers at once, an event is taken in or dropped. -/
theorem steady_forward (domain : Option Nat) (event : Event) :
    (forward call domain event).Steady := by
  cases domain with
  | none => exact (steady_record (by rfl)).bind fun _ => steady_pure _
  | some r =>
    have ha : (modifyDomain r fun d => d.accept event).Steady :=
      steady_modifyDomain r fun d => (d.sameTable_accept event).kind
    refine fun w => steadyAt_get_bind rfl ?_
    dsimp only
    split
    · exact ha.bind (fun _ => steady_pure true) w
    · exact (steady_record (by rfl)).bind
        (fun _ => ha.bind fun _ => steady_pure true) w
    · next hm => exact fun hw => absurd (by rw [Domain.kind, hm]) (hw.domains r)

theorem steady_trigger (issuer : Issuer) (domain : Option Nat) (event : Event) :
    (trigger call issuer domain event).Steady :=
  (steady_record (by rfl)).bind fun _ => steady_forward domain event

theorem steady_storeValue (item : Nat) (access : Access) :
    (storeValue call item access).Steady := by
  refine (steady_modifyItem fun _ => ⟨by rfl, by rfl⟩).bind fun _ =>
    (steady_record (by rfl)).bind fun _ w => steadyAt_get_bind ?_ ?_
  · rw [item_bare]
    rfl
  · exact (steady_record (by rfl)).bind
      (fun _ => (steady_trigger _ _ _).bind fun _ => steady_pure ()) w

theorem blind_write (item : Nat) (value : Value) : (write call item value).Blind := by
  refine fun w => Lockstep.mirrorsAt fun hw => lockstep_get_bind ?_
  rw [item_bare]
  refine (enter_lockstep call hw (hw.chains item) .write _).bind fun p q v => ?_
  rintro ⟨hp, rfl, -⟩
  refine Lockstep.ensure (Q := fun _ _ u => u.During p) ?_ fun _ _ u hu => ?_
  · have hpp : p.permitted := by rw [Pass.permitted, hp.admitted]; rfl
    rw [if_pos hpp, if_pos (show ({ p with entered := [] } : Pass).permitted from hpp)]
    have hs : (storeValue call item p.access).Steady := steady_storeValue item p.access
    obtain ⟨a, b, u, hu, hu', -, ht, ha⟩ := hs v hp.toTame
    exact ⟨a, b, u, hu, hu', { hp with
      toTame := ht
      locked := fun x => by rw [aspect, ha]; exact hp.locked x }⟩
  · obtain ⟨a, b, z, hz, hz', hr⟩ := leave_lockstep call hu
    exact ⟨a, b, z, hz, hz', rfl, hr⟩

/-- A read that is permitted and not superseded hands out the value that it began with. -/
theorem readWithin_permitted {item : Nat} (retries : Nat) {p : Pass} {v z : World}
    (he : enter call (w.item item).chain .read
      { descriptor := (w.item item).descriptor, value := (w.item item).value } w = (.done p, v))
    (hp : p.refusedBy = none) (hi : (v.item item).writes = (w.item item).writes)
    (hl : leave call p v = (.done (), z)) :
    readWithin call item retries w = (.done (.ok (w.item item).value),
      z.mark (.concluded item p.access (.returned (readAttempts - retries)))) := by
  have hv : v.vetoedBy p = none := by rw [vetoedBy, hp]; rfl
  unfold readWithin
  cases retries with
  | zero =>
    refine (bind_of_done (m := get) rfl).trans <| (bind_of_done he).trans <|
      (bind_of_done (m := get) rfl).trans ?_
    simp only [hv]
    exact bind_of_done hl
  | succ k =>
    refine (bind_of_done (m := get) rfl).trans <| (bind_of_done he).trans <|
      (bind_of_done (m := get) rfl).trans ?_
    simp only [hv, hi, ne_eq, not_true_eq_false, if_false]
    exact bind_of_done hl

theorem blind_read (item : Nat) : (read call item).Blind := by
  refine fun w => Lockstep.mirrorsAt fun hw => ?_
  obtain ⟨p, _, v, he, he', hp, rfl, hi⟩ := enter_lockstep call hw (hw.chains item) .read
    { descriptor := (w.item item).descriptor, value := (w.item item).value }
  obtain ⟨_, _, z, hz, hz', hr⟩ := leave_lockstep call hp
  have hb : (w.bare.item item) = (w.item item).bare := w.item_bare item
  refine ⟨.ok (w.item item).value, .ok (w.item item).value, _,
    readWithin_permitted (readAttempts - 1) he hp.admitted (by rw [World.item, hi]; rfl) hz, ?_, rfl,
    hr.mark rfl⟩
  have hv : (v.bare.item item).writes = (w.bare.item item).writes := by
    rw [item_bare, hb, World.item, hi]
    rfl
  have he' : enter call (w.bare.item item).chain .read
      { descriptor := (w.bare.item item).descriptor, value := (w.bare.item item).value } w.bare =
        (.done { p with entered := [] }, v.bare) := by
    rw [hb]
    exact he'
  have hr' := readWithin_permitted (readAttempts - 1) he' hp.admitted hv hz'
  rw [hb] at hr'
  exact hr'

end Engine

end GuardedStore
