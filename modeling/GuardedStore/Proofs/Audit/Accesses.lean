import GuardedStore.Proofs.Audit.Chain

/-!
Guarded accesses keep the law of audits.

What an access makes up for is entered before its pass is left or after that. Either way the two
come to nothing, unless a panic leaves somebody untold.
-/
namespace GuardedStore

/-- What it adds to the balance to leave a pass that the aspect has admitted `n` times. -/
def Pass.owes (p : Pass) (n : Nat) (phase : Phase) (permitted : Bool) : Int :=
  if p.phase = phase ∧ p.permitted = permitted then n else 0

namespace World

/-- A pass under way that the aspect has admitted `n` times. -/
structure Held (x i n : Nat) (phase : Phase) (p : Pass) (w : World) : Prop where
  has : w.Has p.entered
  uncut : w.Uncut p
  phase : p.phase = phase
  count : w.Private x i → p.entered.count x = n

variable {x i n : Nat} {phase : Phase} {p : Pass} {δ : Phase → Bool → Int} {w w' : World}
  {e : Ending}

theorem Held.mono (h : w.Held x i n phase p) (ht : w.Tilts x i 0 δ e w') :
    w'.Held x i n phase p where
  has := h.has.mono ht.grows.aspects
  uncut := h.uncut.mono ht (Nat.ne_of_gt h.uncut.pos)
  phase := h.phase
  count hx := h.count (hx.of_tilts ht)

theorem Private.count_chain_le {j : Nat} (hx : w.Private x i) (hj : j < w.items.next) :
    (w.item j).chain.count x ≤ 1 := by
  by_cases hji : j = i
  · subst hji
    obtain ⟨rest, hch, hr⟩ := hx.first hj
    simp [hch, List.count_eq_zero_of_not_mem hr]
  · rw [List.count_eq_zero_of_not_mem (hx.alone hj hji)]
    exact Nat.zero_le _

end World

namespace Engine

variable {α β : Type} {x i n : Nat} {δ δ' : Phase → Bool → Int} {call : Nat → Engine Unit}
  {w : World}

/-- Started in `w`, the computation changes the balance by `δ`, if everyone was told. -/
def Tips (m : Engine α) (x i : Nat) (δ : Phase → Bool → Int) (w : World) : Prop :=
  w.Audited x → (m w).2.Audited x ∧ w.Tilts x i 0 δ (m w).1.ending (m w).2

theorem KeepsAt.tips {m : Engine α} (h : m.KeepsAt (auditing x i 0) w) :
    m.Tips x i (fun _ _ => 0) w :=
  h

theorem Tips.spec {m : Engine α} (h : m.Tips x i δ w) (hw : w.Audited x) {o : Outcome α}
    {v : World} (hm : m w = (o, v)) : v.Audited x ∧ w.Tilts x i 0 δ o.ending v := by
  have := h hw
  rwa [hm] at this

theorem Tips.congr {m : Engine α} (h : m.Tips x i δ w) (hδ : ∀ phase b, δ phase b = δ' phase b) :
    m.Tips x i δ' w :=
  fun hw => ⟨(h hw).1, (h hw).2.congr fun _ _ _ => hδ⟩

/-- One thing comes after another, and does not come only if somebody is left untold. -/
theorem Tips.bind {m : Engine α} {f : α → Engine β} (hm : m.Tips x i δ w)
    (hp : ∀ text v, m w = (.panicked text, v) → w.Audited x → ∃ a, .left a false ∈ v.history)
    (hf : ∀ a v, m w = (.done a, v) → w.Tilts x i 0 δ .done v → v.Audited x →
      (f a).Tips x i δ' v) : (m >>= f).Tips x i (fun phase b => δ phase b + δ' phase b) w := by
  intro hw
  rw [bind_apply]
  rcases h : m w with ⟨a | text | _, v⟩ <;> obtain ⟨hv, hk⟩ := hm.spec hw h
  · obtain ⟨hu, hk'⟩ := hf a v h hk hv hv
    exact ⟨hu, hk.trans hk'⟩
  · obtain ⟨a, ha⟩ := hp text v h hw
    exact ⟨hv, hk.of_untold ha⟩
  · exact ⟨hv, hk.congr fun he => absurd rfl he⟩

theorem Tips.ensure {m : Engine α} {c : Engine Unit} (hm : m.Tips x i δ w)
    (hc : ∀ o v, m w = (o, v) → w.Tilts x i 0 δ o.ending v → c.Tips x i δ' v) :
    (ensure m c).Tips x i (fun phase b => δ phase b + δ' phase b) w := by
  intro hw
  unfold Engine.ensure
  rcases h : m w with ⟨a | text | _, v⟩ <;> obtain ⟨hv, hk⟩ := hm.spec hw h
  · dsimp only [Engine.bind]
    rcases h' : c v with ⟨_ | _ | _, u⟩ <;> obtain ⟨hu, hk'⟩ := (hc _ v h hk).spec hv h' <;>
      exact ⟨hu, hk.trans hk'⟩
  · dsimp only
    rcases h' : c v with ⟨_ | _ | _, u⟩ <;> obtain ⟨hu, hk'⟩ := (hc _ v h hk).spec hv h' <;>
      exact ⟨hu, hk.trans hk'⟩
  · exact ⟨hv, hk.congr fun he => absurd rfl he⟩

theorem record_tips {y : Happening} (hy : y.ofAccess) :
    (record y).Tips x i (fun phase b => y.due x i phase b) w := fun hw =>
  ⟨World.audited_mark hw (by rintro _ _ _ rfl; cases hy) (by rintro _ _ _ rfl; cases hy)
    (by rintro _ rfl; cases hy), World.tilts_mark y (by rintro _ _ _ rfl; cases hy)⟩

/-- How the access ended makes up for what is told when its pass is left. -/
theorem due_concluded {j : Nat} {a : Access} {u : Upshot} {p : Pass} (hp : p.phase = u.phase)
    (hb : p.permitted = u.permitted) (phase : Phase) (b : Bool) :
    (Happening.concluded j a u).due x i phase b = -p.owes (if j = i then 1 else 0) phase b := by
  simp only [Happening.due, Happening.tells, Happening.ends, Happening.abandons, Pass.owes, hp, hb]
  grind

theorem due_stored {j : Nat} {a : Access} {p : Pass} (hp : p.phase = .write)
    (hb : p.permitted = true) (phase : Phase) (b : Bool) :
    (Happening.stored j a).due x i phase b = -p.owes (if j = i then 1 else 0) phase b := by
  simp only [Happening.due, Happening.tells, Happening.ends, Happening.abandons, Pass.owes, hp, hb]
  grind

theorem concluded_tips {j : Nat} {a : Access} {u : Upshot} {p : Pass} (hp : p.phase = u.phase)
    (hb : p.permitted = u.permitted) : (record (.concluded j a u)).Tips x i
      (fun phase b => -p.owes (if j = i then 1 else 0) phase b) w :=
  (record_tips rfl).congr (due_concluded hp hb)

section Calls

variable (hc : ∀ r, (call r).Keeps (auditing x i 0))

include hc

theorem leave_tips {phase : Phase} {p : Pass} (hp : w.Held x i n phase p) :
    (leave call p).Tips x i (p.owes n) w := by
  intro hw
  obtain ⟨hv, hk, -⟩ := leave_tilts hc (i := i) hw hp.has (.inr hp.uncut) rfl
  refine ⟨hv, hk.congr fun _ hx _ phase b => ?_⟩
  rw [Pass.notes, hp.count (hx.of_tilts hk), Pass.owes]

theorem leave_untold {phase : Phase} {p : Pass} (hp : w.Held x i n phase p) (text : String)
    (v : World) (h : leave call p w = (.panicked text, v)) (hw : w.Audited x) :
    ∃ a, .left a false ∈ v.history :=
  ⟨_, (leave_tilts hc (i := i) hw hp.has (.inr hp.uncut) h).2.2 rfl⟩

/-- What comes after leaving a pass. -/
theorem leave_bind_tips {phase : Phase} {p : Pass} {f : Unit → Engine β}
    (hp : w.Held x i n phase p) (hf : ∀ v, v.Held x i n phase p →
      (f ()).Tips x i (fun phase b => -p.owes n phase b) v) :
    (leave call p >>= f).KeepsAt (auditing x i 0) w := by
  exact ((leave_tips hc hp).bind (leave_untold hc hp) fun _ v _ hk _ => hf v (hp.mono hk)).congr
    fun phase b => Int.add_right_neg _

/-- A computation that enters a chain and then sees to the pass. -/
theorem entering_auditing {chain : List Nat} {phase : Phase} {access : Access}
    {f : Pass → Engine β} (hw : w.Audited x) (hch : w.Has chain)
    (hx : w.Private x i → chain.count x ≤ 1)
    (hn : ∀ p v, w.Private x i → enter call chain phase access w = (.done p, v) →
      p.entered.count x = n)
    (hf : ∀ p v, v.Held x i n phase p → w.Tilts x i 0 (fun _ _ => 0) .done v →
      (∀ a ∈ p.entered, a ∈ chain) → (f p).KeepsAt (auditing x i p.access.ticket) v) :
    (enter call chain phase access >>= f).KeepsAt (auditing x i 0) w := by
  intro _
  rw [bind_apply]
  rcases h : enter call chain phase access w with ⟨p | text | _, v⟩ <;>
    obtain ⟨hk, hu⟩ := enter_tilts hc (i := i) hw hch hx h
  · obtain ⟨hu, hlt⟩ := hu p rfl
    have hp : v.Held x i n phase p := {
      has := fun a ha => Nat.lt_of_lt_of_le (hch a (mem_entered_of_enter h a ha))
        hk.2.grows.aspects
      uncut := hu
      phase := phase_of_enter h
      count := fun hp => hn p v (hp.of_tilts hk.2) h }
    have hk' := hk.weaken_audit.done_trans hw (hf p v hp hk.2 (mem_entered_of_enter h) hk.1)
    exact ⟨hk'.1, hk'.2.disown hlt⟩
  · exact hk
  · exact hk

/-- A computation that enters the chain of an item and then sees to the pass. -/
theorem accessing_auditing {j : Nat} {phase : Phase} {access : Access} {f : Pass → Engine β}
    (hw : w.Audited x) (hj : j < w.items.next)
    (hf : ∀ p v, v.Held x i (if j = i then 1 else 0) phase p → j < v.items.next →
      (f p).KeepsAt (auditing x i 0) v) :
    (enter call (w.item j).chain phase access >>= f).KeepsAt (auditing x i 0) w :=
  entering_auditing hc hw (fun _ => hw.sound.chains) (fun hx => hx.count_chain_le hj)
    (fun _ _ hx h => count_of_enter hx hj hw.sound h) fun p v hp hk _ hv =>
      (hf p v hp (Nat.lt_of_lt_of_le hj hk.grows.items) hv).weaken_audit

/-- A value is stored under a pass that was permitted. -/
theorem storeValue_tips {j : Nat} {a : Access} {p : Pass} (hp : p.phase = .write)
    (hb : p.permitted = true) : (storeValue call j a).Tips x i
      (fun phase b => -p.owes (if j = i then 1 else 0) phase b) w := by
  have hs : (modify (World.modifyItem j fun i => i.store a.value)).KeepsAt (auditing x i 0) w :=
    keepsAt_modify fun hw => by
      have ha : w.Apart x (w.storing j a.value) :=
        World.apart_of_same (World.grows_storing j a.value)
          (World.sound_storing j a.value (World.Audited.sound hw)) rfl rfl rfl ⟨[], by simp, rfl⟩
      exact ha.holds hw
  have hrest : (do
      let i := (← get).item j
      notice (.writeStored i.descriptor i.writes)
      let _ ← trigger call (.item j) i.affinity ⟨i.source, i.writes⟩ : Engine Unit).Keeps
        (auditing x i 0) :=
    keeps_get_bind fun v => Keeps.bind (impartial_keeps rfl) (fun _ => Keeps.bind
      (Keeps.bind (impartial_keeps rfl) fun _ => forward_keeps (auditing_calm x i).delivering hc _ _)
      fun _ => keeps_pure ()) v
  refine (hs.tips.bind nofun fun _ v _ _ _ =>
    (record_tips rfl).bind nofun fun _ u _ _ _ => (hrest u).tips).congr
      fun phase b => ?_
  rw [due_stored hp hb, Int.add_zero, Int.zero_add]

theorem write_auditing {j : Nat} (value : Value) (hj : j < w.items.next) :
    (write call j value).KeepsAt (auditing x i 0) w := by
  intro hw
  refine keepsAt_get_bind (accessing_auditing hc hw hj fun p v hp _ => ?_) hw
  refine (Tips.ensure (δ := fun phase b => -p.owes (if j = i then 1 else 0) phase b) ?_
    fun _ u _ hk => leave_tips hc (hp.mono hk)).congr fun phase b => Int.add_left_neg _
  split
  · next hb => exact storeValue_tips hc hp.phase hb
  · next hb =>
    have hb : p.permitted = false := by simpa using hb
    refine Tips.congr (δ := fun phase b => 0 + -p.owes (if j = i then 1 else 0) phase b) ?_
      fun phase b => Int.zero_add _
    exact (impartial_keeps rfl v).tips.bind nofun fun _ u _ _ _ => concluded_tips hp.phase hb

/-- A refused read is over once its pass is left. -/
theorem refused_auditing {j : Nat} {p : Pass} {y : Happening} {r : β}
    (hp : w.Held x i (if j = i then 1 else 0) .read p) (hb : p.permitted = false)
    (hy : y.impartial) :
    (leave call p >>= fun _ => record y >>= fun _ =>
      record (.concluded j p.access .refused) >>= fun _ => pure r).KeepsAt (auditing x i 0) w := by
  refine leave_bind_tips hc hp fun v hp => ?_
  refine Tips.congr ((impartial_keeps hy v).tips.bind nofun fun _ u _ _ _ =>
    (concluded_tips hp.phase hb).bind nofun fun _ u _ _ _ => (keeps_pure r u).tips)
      fun phase b => ?_
  rw [Int.zero_add, Int.add_zero]

/-- A read that hands out a value is over once its pass is left. -/
theorem returned_auditing {j k : Nat} {p : Pass} {r : β}
    (hp : w.Held x i (if j = i then 1 else 0) .read p) (hb : p.permitted = true) :
    (leave call p >>= fun _ => record (.concluded j p.access (.returned k)) >>= fun _ =>
      pure r).KeepsAt (auditing x i 0) w := by
  refine leave_bind_tips hc hp fun v hp => ?_
  exact ((concluded_tips hp.phase hb).bind nofun fun _ u _ _ _ => (keeps_pure r u).tips).congr
    fun phase b => Int.add_zero _

/-- A pass that was superseded is entered as such before it is left. -/
theorem superseded_auditing {j : Nat} {p : Pass} {y : Happening} {m : Engine β}
    (hp : w.Held x i (if j = i then 1 else 0) .read p) (hb : p.permitted = true)
    (hy : y.impartial) (hm : ∀ v, w.Grows v → m.KeepsAt (auditing x i 0) v) :
    (record y >>= fun _ => record (.concluded j p.access .superseded) >>= fun _ =>
      leave call p >>= fun _ => m).KeepsAt (auditing x i 0) w := by
  refine Tips.congr ((impartial_keeps hy w).tips.bind nofun fun _ u _ hk _ =>
    (concluded_tips hp.phase hb).bind nofun fun _ v _ hk' _ =>
      (leave_tips hc ((hp.mono hk).mono hk')).bind (leave_untold hc ((hp.mono hk).mono hk'))
        fun _ z _ hk'' _ => (hm z ((hk.grows.trans hk'.grows).trans hk''.grows)).tips)
          fun phase b => ?_
  omega

theorem readWithin_auditing {j : Nat} (retries : Nat) : ∀ {w : World}, j < w.items.next →
    (readWithin call j retries).KeepsAt (auditing x i 0) w := by
  have permitted_of_none {p : Pass} {v : World} (h : v.vetoedBy p = none) : p.permitted = true := by
    simpa [World.vetoedBy, Pass.permitted] using h
  have permitted_of_some {p : Pass} {v : World} {name : String} (h : v.vetoedBy p = some name) :
      p.permitted = false := by
    cases hr : p.refusedBy <;> simp [World.vetoedBy, Pass.permitted, hr] at h ⊢
  induction retries with
  | zero =>
    intro w hj hw
    unfold readWithin
    refine keepsAt_get_bind (accessing_auditing hc hw hj fun p v hp hj => keepsAt_get_bind ?_) hw
    split
    · next h => exact refused_auditing hc hp (permitted_of_some h) rfl
    · next h => exact returned_auditing hc hp (permitted_of_none h)
  | succ retries ih =>
    intro w hj hw
    unfold readWithin
    refine keepsAt_get_bind (accessing_auditing hc hw hj fun p v hp hj => keepsAt_get_bind ?_) hw
    split
    · next h => exact refused_auditing hc hp (permitted_of_some h) rfl
    · next h =>
      dsimp only
      split
      · exact superseded_auditing hc hp (permitted_of_none h) rfl fun u hg =>
          ih (Nat.lt_of_lt_of_le hj hg.items)
      · exact returned_auditing hc hp (permitted_of_none h)

/-- Somebody asks an aspect outside of a pass. -/
theorem visit_ask_auditing (y : Nat) (phase : Phase) (access : Access) :
    (record (.visited [y]) >>= fun _ => ask call y phase access).Keeps (auditing x i 0) :=
  (impartial_keeps rfl).bind fun _ => ask_auditing hc y phase access

/-- Somebody tells an aspect outside of a pass, which then belongs to no item alone. -/
theorem visit_tell_auditing {y : Nat} {phase : Phase} {access : Access} {b : Bool}
    (hy : w.names.Calls y) : (record (.visited [y]) >>= fun _ =>
      tell call y phase access b).KeepsAt (auditing x i 0) w := by
  intro hw
  have hlt := (World.Audited.sound hw).names.calls hy
  refine (impartial_keeps rfl w).bind (fun _ v hv hk hv' => ?_) hw
  cases hv
  obtain ⟨hu, hk'⟩ := tell_tilts hc (i := i) hv' (Nat.lt_of_lt_of_le hlt hk.2.grows.aspects) rfl
  refine ⟨hu, hk'.congr fun _ hx _ phase b => ?_⟩
  have hyx : ¬ y = x := fun h =>
    hx.unvisited (hk'.grows.history.subset List.mem_cons_self) (by rw [h]; exact List.mem_cons_self)
  simp [Happening.due, Happening.tells, Happening.ends, Happening.abandons, hyx]

end Calls

end Engine

end GuardedStore
