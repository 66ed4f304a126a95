import GuardedStore.Proofs.Run.Forms

/-!
Laws about what aspects are asked and told.

A pass asks the aspects of a chain and tells those that admitted it. A law that is kept by asking
and telling single aspects is kept by every pass, and by every access, as long as the law knows the
aspects: those it says nothing of beforehand, or those that it allows to be asked just then.
-/
namespace GuardedStore

/-- Whether a happening is a mark that guards leave. That a read hands out a value is more than
that. -/
def Happening.ofGuards : Happening → Bool
  | hook .. | began .. | admitted .. | abandoned .. | told .. | left .. | visited _ => true
  | concluded _ _ (.returned _) => false
  | concluded .. => true
  | notice n => n.ofGuards
  | _ => false

/-- Whether it is a mark of how a pass ends. -/
def Happening.ofEnd : Happening → Bool
  | abandoned .. | left .. => true
  | concluded _ _ (.returned _) => false
  | concluded .. => true
  | notice n => n.ofGuards
  | _ => false

theorem Happening.ofGuards_of_ofEnd {h : Happening} (hh : h.ofEnd) : h.ofGuards := by
  cases h with
  | notice n => exact hh
  | concluded i a u => cases u <;> first | rfl | cases hh
  | _ => first | rfl | cases hh

namespace Engine

variable {call : Nat → Engine Unit}

/-- A pass goes on past an aspect that has answered. -/
theorem proceed_cons_done {x : Nat} {aspects : List Nat} {pass pass' : Pass} {w v : World}
    (h : proceed call pass (x :: aspects) w = (.done pass', v)) :
    ∃ b u, ask call x pass.phase pass.access w = (.done b, u) ∧
      if b then proceed call { pass with entered := x :: pass.entered } aspects u = (.done pass', v)
      else pass' = { pass with refusedBy := some x } ∧ v = u := by
  unfold proceed at h
  rw [bind_apply] at h
  unfold onUnwind at h
  rcases hx : ask call x pass.phase pass.access w with ⟨b | _ | _, u⟩ <;> rw [hx] at h
  · refine ⟨b, u, rfl, ?_⟩
    cases b with
    | true => exact h
    | false =>
      cases h
      exact ⟨rfl, rfl⟩
  · dsimp only at h
    rcases hl : abandon call pass u with ⟨_ | _ | _, u⟩ <;> rw [hl] at h <;> cases h
  · cases h

/-- Which pass it is stays as it was. -/
theorem same_of_proceed {aspects : List Nat} : ∀ {pass pass' : Pass} {w v : World},
    proceed call pass aspects w = (.done pass', v) →
      pass'.phase = pass.phase ∧ pass'.access = pass.access := by
  induction aspects with
  | nil =>
    rintro pass pass' w v ⟨⟩
    exact ⟨rfl, rfl⟩
  | cons x aspects ih =>
    intro pass pass' w v h
    obtain ⟨b, u, -, h⟩ := proceed_cons_done h
    cases b with
    | true => exact (ih h : _)
    | false =>
      obtain ⟨rfl, -⟩ := h
      exact ⟨rfl, rfl⟩

theorem access_of_proceed {aspects : List Nat} {pass pass' : Pass} {w v : World}
    (h : proceed call pass aspects w = (.done pass', v)) : pass'.access = pass.access :=
  (same_of_proceed h).2

theorem phase_of_enter {chain : List Nat} {phase : Phase} {access : Access} {pass : Pass}
    {w v : World} (h : enter call chain phase access w = (.done pass, v)) : pass.phase = phase :=
  (same_of_proceed h).1

/-- A pass is for the access that it was entered for, under a ticket of its own. -/
theorem access_of_enter {chain : List Nat} {phase : Phase} {access : Access} {pass : Pass}
    {w v : World} (h : enter call chain phase access w = (.done pass, v)) :
    pass.access = { access with ticket := w.tickets + 1 } :=
  access_of_proceed h

theorem value_of_enter {chain : List Nat} {phase : Phase} {access : Access} {pass : Pass}
    {w v : World} (h : enter call chain phase access w = (.done pass, v)) :
    pass.access.value = access.value := by
  rw [access_of_enter h]

/-- What a read that comes to an end does with its first pass: it leaves it and gives a fault or the
value, or else it begins again. -/
theorem readWithin_done {item retries : Nat} {r : Except Fault Value} {w v : World}
    (h : readWithin call item retries w = (.done r, v)) : ∃ pass u z,
      enter call (w.item item).chain .read
          { descriptor := (w.item item).descriptor, value := (w.item item).value } w =
        (.done pass, u) ∧
      ((∃ y fault, leave call pass u = (.done (), z) ∧ r = .error fault ∧
          v = (z.mark y).mark (.concluded item pass.access .refused)) ∨
        (leave call pass u = (.done (), z) ∧ r = .ok pass.access.value ∧
          v = z.mark (.concluded item pass.access (.returned (readAttempts - retries)))) ∨
        ∃ k y, retries = k + 1 ∧ y.ofGuards ∧
          leave call pass ((u.mark y).mark (.concluded item pass.access .superseded)) =
            (.done (), z) ∧
          readWithin call item k z = (.done r, v)) := by
  unfold readWithin at h
  cases retries with
  | zero =>
    obtain ⟨pass, u, he, h⟩ := done_of_bind (m := enter call _ _ _) (w := w) h
    obtain ⟨_, _, ⟨⟩, h⟩ := done_of_bind h
    cases hv : u.vetoedBy pass <;> rw [hv] at h <;> obtain ⟨_, z, hz, h⟩ := done_of_bind h <;>
      cases h
    · exact ⟨pass, u, z, he, .inr (.inl ⟨hz, by rw [value_of_enter he], rfl⟩)⟩
    · exact ⟨pass, u, z, he, .inl ⟨_, _, hz, rfl, rfl⟩⟩
  | succ k =>
    obtain ⟨pass, u, he, h⟩ := done_of_bind (m := enter call _ _ _) (w := w) h
    obtain ⟨_, _, ⟨⟩, h⟩ := done_of_bind h
    cases hv : u.vetoedBy pass <;> rw [hv] at h
    · dsimp only at h
      split at h
      · obtain ⟨_, _, ⟨⟩, h⟩ := done_of_bind h
        obtain ⟨_, _, ⟨⟩, h⟩ := done_of_bind h
        obtain ⟨_, z, hz, h⟩ := done_of_bind h
        exact ⟨pass, u, z, he, .inr (.inr ⟨k, _, rfl, rfl, hz, h⟩)⟩
      · obtain ⟨_, z, hz, h⟩ := done_of_bind h
        cases h
        exact ⟨pass, u, z, he, .inr (.inl ⟨hz, by rw [value_of_enter he], rfl⟩)⟩
    · obtain ⟨_, z, hz, h⟩ := done_of_bind h
      cases h
      exact ⟨pass, u, z, he, .inl ⟨_, _, hz, rfl, rfl⟩⟩

/-- The last thing that happens when a read ends is what its caller learns. -/
theorem concluded_of_readWithin {item : Nat} (retries : Nat) : ∀ {r : Except Fault Value}
    {w v : World}, readWithin call item retries w = (.done r, v) → ∃ a u older,
      v.history = .concluded item a u :: older ∧
        (u = .refused ∧ (∃ fault, r = .error fault) ∨ (∃ n, u = .returned n) ∧ r = .ok a.value) := by
  induction retries using Nat.strongRecOn with
  | ind retries ih =>
    intro r w v h
    obtain ⟨pass, u, z, -, ⟨y, fault, -, rfl, rfl⟩ | ⟨-, rfl, rfl⟩ | ⟨k, y, rfl, -, -, h⟩⟩ :=
      readWithin_done h
    · exact ⟨_, _, _, rfl, .inl ⟨rfl, fault, rfl⟩⟩
    · exact ⟨_, _, _, rfl, .inr ⟨⟨_, rfl⟩, rfl⟩⟩
    · exact ih k (Nat.lt_succ_self k) h

/-- Who admitted a pass is in its chain. -/
theorem mem_entered_of_proceed {aspects : List Nat} : ∀ {pass pass' : Pass} {w v : World},
    proceed call pass aspects w = (.done pass', v) →
      ∀ a ∈ pass'.entered, a ∈ pass.entered ∨ a ∈ aspects := by
  induction aspects with
  | nil =>
    rintro pass pass' w v ⟨⟩ a ha
    exact .inl ha
  | cons x aspects ih =>
    intro pass pass' w v h a ha
    obtain ⟨b, u, -, h⟩ := proceed_cons_done h
    cases b with
    | true =>
      have hm := ih h a ha
      grind
    | false =>
      obtain ⟨rfl, -⟩ := h
      exact .inl ha

theorem mem_entered_of_enter {chain : List Nat} {phase : Phase} {access : Access} {pass : Pass}
    {w v : World} (h : enter call chain phase access w = (.done pass, v)) :
    ∀ a ∈ pass.entered, a ∈ chain := by
  intro a ha
  rcases mem_entered_of_proceed h a ha with ha | ha
  · cases ha
  · exact ha

/-- The law is kept by whatever is done with aspects that have `A`, where `call` runs scripts: they
are asked and told, and passes through chains of them begin, are named and end. -/
structure Guides (call : Nat → Engine Unit) (L : Law) (A : World → Nat → Prop) : Prop where
  sound {w} : L.inv w → w.Sound
  grows {w e w'} : L.rel w e w' → w.Grows w'
  stuck {w} : L.inv w → L.rel w .stuck w
  still {w e w' x} : A w x → L.inv w → L.Holds w e w' → A w' x
  ask {w x} phase access : A w x → (Engine.ask call x phase access).KeepsAt L w
  tell {w x} phase access permitted : A w x → (Engine.tell call x phase access permitted).KeepsAt L w
  begin {w} chain phase access : (∀ x ∈ chain, A w x) → L.inv w →
    L.Holds w .done (w.begin chain phase access)
  mark {w h} : h.ofEnd → L.inv w → L.Holds w .done (w.mark h)
  visited {w} chain : (∀ x ∈ chain, w.names.Calls x) → L.inv w →
    L.Holds w .done (w.mark (.visited chain))
  /-- Whoever visits a chain may ask its aspects. -/
  visit {w chain x} : L.inv w → w.Has chain → .visited chain ∈ w.history → x ∈ chain → A w x
  held {w name p x} : L.inv w → w.names.passages.find? name = some p → x ∈ p.entered → A w x
  passing {w f} : (∀ {name q}, (f w.names.passages).find? name = some q →
      w.names.passages.find? name = some q ∨
        w.Has q.entered ∧ ∃ chain, .visited chain ∈ w.history ∧ ∀ x ∈ q.entered, x ∈ chain) →
    L.inv w → L.Holds w .done (w.passing f)

variable {α : Type} {L : Law} {A : World → Nat → Prop} {w : World} (g : Guides call L A)

include g

theorem mark_guided {h : Happening} (hh : h.ofEnd) : (record h).Keeps L :=
  fun _ => keepsAt_modify (g.mark hh)

theorem tellAll_guided {p : Pass} {xs : List Nat} : ∀ {w : World}, (∀ x ∈ xs, A w x) →
    (tellAll call p xs).KeepsAt L w := by
  induction xs with
  | nil => exact fun _ => keeps_pure () _
  | cons x xs ih =>
    intro w hx hw
    refine (g.tell p.phase p.access p.permitted (hx x List.mem_cons_self)).bind
      (fun _ v _ hv => ih fun y hy => ?_) hw
    exact g.still (hx y (List.mem_cons_of_mem x hy)) hw hv

theorem leave_guided {p : Pass} (hp : ∀ x ∈ p.entered, A w x) : (leave call p).KeepsAt L w :=
  ((tellAll_guided g hp).onUnwind fun _ v _ _ => mark_guided g rfl v).bind
    fun _ v _ _ => mark_guided g rfl v

theorem abandon_guided {p : Pass} (hp : ∀ x ∈ p.entered, A w x) : (abandon call p).KeepsAt L w :=
  fun hw => (mark_guided g rfl w).bind
    (fun _ _ _ hv => leave_guided g fun x hx => g.still (hp x hx) hw hv) hw

theorem proceed_guided {xs : List Nat} : ∀ {p : Pass} {w : World}, (∀ x ∈ p.entered, A w x) →
    (∀ x ∈ xs, A w x) → (proceed call p xs).KeepsAt L w := by
  induction xs with
  | nil => exact fun {p _} _ _ => keeps_pure p _
  | cons x xs ih =>
    intro p w hp hx hw
    have hk {e : Ending} {v : World} (hv : L.Holds w e v) : ∀ y ∈ p.entered, A v y :=
      fun y hy => g.still (hp y hy) hw hv
    refine KeepsAt.bind ((g.ask p.phase p.access (hx x List.mem_cons_self)).onUnwind
      fun _ _ _ hv => abandon_guided g (hk hv)) (fun b v _ hv => ?_) hw
    split
    · refine ih (fun y hy => ?_) fun y hy => g.still (hx y (List.mem_cons_of_mem x hy)) hw hv
      rcases List.mem_cons.mp hy with rfl | hy
      · exact g.still (hx y List.mem_cons_self) hw hv
      · exact hk hv y hy
    · exact keeps_pure _ v

theorem enter_guided {chain : List Nat} (phase : Phase) (access : Access)
    (hch : ∀ x ∈ chain, A w x) : (enter call chain phase access).KeepsAt L w := by
  intro hw
  have hb := g.begin chain phase access hch hw
  exact hb.done_trans hw (proceed_guided g (p := {
    phase, access := { access with ticket := w.tickets + 1 }, entered := [], refusedBy := none })
      nofun (fun x hx => g.still (hch x hx) hw hb) hb.1)

/-- What comes after entering a chain may leave the pass. -/
theorem entering_guided {chain : List Nat} {phase : Phase} {access : Access} {f : Pass → Engine α}
    (hch : ∀ x ∈ chain, A w x)
    (hf : ∀ p v, enter call chain phase access w = (.done p, v) → L.Holds w .done v →
      (∀ x ∈ p.entered, A v x) → (f p).KeepsAt L v) :
    (enter call chain phase access >>= f).KeepsAt L w :=
  fun hw => (enter_guided g phase access hch).bind (fun p v hv hv' => hf p v hv hv' fun x hx =>
    g.still (hch x (mem_entered_of_enter hv x hx)) hw hv') hw

/-- A guarded read, where all that concerns the law besides asking and telling is that it hands out
a value. -/
theorem readWithin_guided {item : Nat} (retries : Nat)
    (hr : ∀ access passes, (record (.concluded item access (.returned passes))).Keeps L) :
    ∀ {w : World}, (∀ v, L.Holds w .done v → ∀ x ∈ (v.item item).chain, A v x) →
      (readWithin call item retries).KeepsAt L w := by
  have refused {β : Type} {p : Pass} {n : Notice} {r : β} {v : World} (hn : n.ofGuards)
      (hp : ∀ x ∈ p.entered, A v x) : (leave call p >>= fun _ => notice n >>= fun _ =>
        record (.concluded item p.access .refused) >>= fun _ => pure r).KeepsAt L v :=
    (leave_guided g hp).bind fun _ u _ _ => (mark_guided g (h := .notice n) hn).bind
      (fun _ => (mark_guided g rfl).bind fun _ => keeps_pure r) u
  have returned {β : Type} {p : Pass} {n : Nat} {r : β} {v : World}
      (hp : ∀ x ∈ p.entered, A v x) : (leave call p >>= fun _ =>
        record (.concluded item p.access (.returned n)) >>= fun _ => pure r).KeepsAt L v :=
    (leave_guided g hp).bind fun _ u _ _ => (hr _ _).bind (fun _ => keeps_pure r) u
  induction retries with
  | zero =>
    intro w hA hw
    unfold readWithin
    refine keepsAt_get_bind (entering_guided g (hA w ⟨hw, L.refl hw⟩) fun p v _ _ hp =>
      keepsAt_get_bind ?_) hw
    split
    · exact refused rfl hp
    · exact returned hp
  | succ retries ih =>
    intro w hA hw
    unfold readWithin
    refine keepsAt_get_bind (entering_guided g (hA w ⟨hw, L.refl hw⟩) fun p v _ hv hp =>
      keepsAt_get_bind ?_) hw
    split
    · exact refused rfl hp
    · dsimp only
      split
      · intro hv'
        -- the pass is left, and the read begins again
        have hm := ((mark_guided g (h := .notice (.readSuperseded (w.item item).descriptor
          (readAttempts - (retries + 1)))) rfl).bind fun _ => mark_guided g
            (h := .concluded item p.access .superseded) rfl).bind (f := fun _ => pure ())
              (fun _ => keeps_pure ()) v hv'
        have hp' := fun x hx => g.still (hp x hx) hv' hm
        refine hm.done_trans hv' ((leave_guided g hp').bind (fun _ z _ hz => ih fun y hy => ?_) hm.1)
        exact hA y (((hv.done_trans hw hm).done_trans hw hz).done_trans hw hy)
      · exact returned hp

/-- A guarded write, where all that concerns the law besides asking and telling is storing the
value. -/
theorem write_guided {item : Nat} (value : Value) (hch : ∀ x ∈ (w.item item).chain, A w x)
    (hs : ∀ pass v, enter call (w.item item).chain .write
        { descriptor := (w.item item).descriptor, value } w = (.done pass, v) →
      L.Holds w .done v → (storeValue call item pass.access).KeepsAt L v) :
    (write call item value).KeepsAt L w := by
  refine keepsAt_get_bind (entering_guided g hch fun p v hv hv' hp hv'' => ?_)
  refine KeepsAt.ensure ?_ (fun _ u _ hu _ => leave_guided g fun x hx =>
    g.still (hp x hx) hv'' hu) hv''
  split
  · exact hs p v hv hv'
  · exact keepsAt_get_bind ((mark_guided g rfl).bind (fun _ => mark_guided g rfl) v)

/-- Somebody asks an aspect outside of a pass. -/
theorem visit_ask_guided {x : Nat} (phase : Phase) (access : Access) (hx : w.names.Calls x) :
    (record (.visited [x]) >>= fun _ => ask call x phase access).KeepsAt L w := by
  intro hw
  have has : w.Has [x] := by simpa [World.Has] using (g.sound hw).names.calls hx
  have hv := g.visited [x] (by simpa using hx) hw
  exact hv.done_trans hw (g.ask phase access (g.visit hv.1 has List.mem_cons_self
    List.mem_cons_self) hv.1)

/-- Somebody tells an aspect outside of a pass. -/
theorem visit_tell_guided {x : Nat} (phase : Phase) (access : Access) (permitted : Bool)
    (hx : w.names.Calls x) : (record (.visited [x]) >>= fun _ =>
      tell call x phase access permitted).KeepsAt L w := by
  intro hw
  have has : w.Has [x] := by simpa [World.Has] using (g.sound hw).names.calls hx
  have hv := g.visited [x] (by simpa using hx) hw
  exact hv.done_trans hw (g.tell phase access permitted (g.visit hv.1 has List.mem_cons_self
    List.mem_cons_self) hv.1)

end Engine

namespace Performing

variable {call : Nat → Engine Unit} {L : Law} {A : World → Nat → Prop} {w : World}
  (g : Engine.Guides call L A)

include g

theorem enter_guided (chain : String) (phase : Phase) (passage : Option String)
    (plan : AccessPlan) : (enter call chain phase passage plan).run.Keeps L := by
  intro w hw
  refine (looks_named _ _ _).keepsAt_bind (fun chain hch => (looks_access plan).keepsAt_bind
    fun access _ => ?_) hw
  have hcalls : ∀ x ∈ chain, w.names.Calls x := fun x hx => .inr ⟨_, chain, hch, hx⟩
  have hch : w.Has chain := fun a ha => (g.sound hw).names.calls (hcalls a ha)
  refine keepsAt_lift_bind (Engine.keepsAt_modify (g.visited chain hcalls)) fun _ u hu _ hu' => ?_
  cases hu
  have hA (x : Nat) (hx : x ∈ chain) := g.visit hu' hch List.mem_cons_self hx
  refine (Engine.entering_guided g hA fun p v hv hv' hp => ?_).congr
    (congrFun (run_lift_bind _ _) _) hu'
  refine looks_world.keepsAt_bind fun _ _ => ?_
  cases passage with
  | none => exact keepsAt_lift_bind (Engine.leave_guided g hp) fun _ v _ _ => keeps_pure _ v
  | some passage =>
    refine looks_world.keepsAt_bind fun x hx hv'' => ?_
    subst hx
    have hentered := Engine.mem_entered_of_enter hv
    refine keepsAt_bind (keepsAt_lift (Engine.keepsAt_modify (g.passing
      (f := (·.put passage p)) fun hq => ?_))) (fun _ z hz hz' => ?_) hv''
    · rcases World.find?_put_some hq with ⟨-, rfl⟩ | ⟨-, hq⟩
      · exact .inr ⟨fun a ha => (hch.mono (g.grows hv'.2).aspects) a (hentered a ha), chain,
          (g.grows hv'.2).history.subset List.mem_cons_self, hentered⟩
      · exact .inl hq
    · refine keepsAt_bind ?_ fun _ v _ _ => keeps_pure _ v
      cases ho : x.names.passages.find? passage with
      | none => exact keeps_pure _ z
      | some old =>
        exact keepsAt_lift (Engine.leave_guided g fun y hy =>
          g.still (g.held hv'' ho hy) hv'' hz')

theorem exit_guided (passage : String) : (exit call passage).run.Keeps L := by
  intro w hw
  refine (looks_named _ _ _).keepsAt_bind (fun p hp => ?_) hw
  refine keepsAt_bind (keepsAt_lift (Engine.keepsAt_modify (g.passing
    (f := (·.erase passage)) fun hq => .inl (World.find?_erase_some hq).2))) fun _ u hu hu' => ?_
  exact looks_world.keepsAt_bind fun _ _ => keepsAt_lift_bind (Engine.leave_guided g fun x hx =>
    g.still (g.held hw hp hx) hw hu') fun _ v _ _ => keeps_pure _ v

theorem chainWait_guided (hm : ∀ muted, (Engine.modify fun w => { w with muted }).Keeps L)
    (chain : String) (phase : Phase) (plan : AccessPlan) :
    (chainWait call chain phase plan).run.Keeps L := by
  intro w hw
  refine (looks_named _ _ _).keepsAt_bind (fun chain hch => (looks_access plan).keepsAt_bind
    fun access _ => ?_) hw
  have hcalls : ∀ x ∈ chain, w.names.Calls x := fun x hx => .inr ⟨_, chain, hch, hx⟩
  have hch : w.Has chain := fun a ha => (g.sound hw).names.calls (hcalls a ha)
  refine keepsAt_lift_bind (Engine.keepsAt_modify (g.visited chain hcalls)) fun _ u hu _ hu' => ?_
  cases hu
  have hA (x : Nat) (hx : x ∈ chain) := g.visit hu' hch List.mem_cons_self hx
  -- a pass is begun and left
  refine (Engine.entering_guided g hA fun first v _ hv hp hv' => ?_).congr
    (congrFun (run_lift_bind _ _) _) hu'
  have hAv := fun x hx => g.still (hA x hx) hu' hv
  refine keepsAt_lift_bind (Engine.leave_guided g hp) (fun _ z _ hz hz' => ?_) hv'
  have hAz := fun x hx => g.still (hAv x hx) hv' hz
  refine keepsAt_lift_bind (hm true z) (fun _ y _ hy hy' => ?_) hz'
  refine keepsAt_bind (Engine.KeepsAt.ensure ?_ fun _ v _ _ _ => hm false v)
    (fun _ v _ _ => keeps_pure _ v) hy'
  refine (Engine.entering_guided g (fun x hx => g.still (hAz x hx) hz' hy)
    fun second v _ _ hp => ?_).congr (congrFun (run_lift_bind _ _) _)
  exact keepsAt_lift_bind (Engine.leave_guided g hp) fun _ v _ _ => keeps_pure _ v

end Performing

end GuardedStore
