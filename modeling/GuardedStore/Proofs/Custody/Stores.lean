import GuardedStore.Proofs.Custody.Delivery
import GuardedStore.Proofs.Estate.Admitted

/-!
Names and uses of stores keep custody.

A store is dropped only when it goes by no name and nobody uses it. A call that uses a store found it
by a name, so it was not dropped, and the store stays until the call is over.
-/
namespace GuardedStore

open World

variable {s : Nat} {strict : Prop} {w : World}

/-- Stores may be named otherwise if no name is given to one that was given up. -/
theorem custody_renaming {names : Names} (hv : w.names.Valid w → names.Valid w)
    (hsingle : ∀ {n n'}, names.stores.find? n = some s → names.stores.find? n' = some s → n = n')
    (hn : ∀ {n}, names.stores.find? n = some s →
      (w.store s).dropped = false ∧ (w.store s).replaced = false)
    (hw : (custody s strict).inv w) : (custody s strict).Holds w .done { w with names } :=
  ⟨⟨sound_rename (f := fun _ => names) hv hw.1, hw.2.held, hw.2.custodial, hw.2.gone, hw.2.unused,
    fun ⟨_, h⟩ => hn h, hsingle, hw.2.unborn⟩, grows_rename (f := fun _ => names),
    List.prefix_refl _, fun _ => ⟨.refl s w, fun _ => rfl⟩⟩

/-- A store that is not dropped may be used otherwise; only one without a name is replaced. -/
theorem World.Safekeeping.usage {f : Store → Store} (hf : Usage f) (hc : w.Safekeeping s)
    (hs : s < w.stores.next)
    (hr : w.Named s → (f (w.store s)).replaced = (w.store s).replaced)
    (hu : (w.store s).dropped → (f (w.store s)).inUse = false) :
    (w.modifyStore s f).Safekeeping s := by
  have hst : (w.modifyStore s f).store s = f (w.store s) := by rw [store_modifyStore, if_pos rfl]
  refine ⟨hc.held, hc.custodial, fun h => ?_, fun h => ?_, fun hn => ?_, hc.single,
    fun h => absurd hs (Nat.not_lt.mpr h)⟩
  · rw [hst, hf.dropped]
    exact hc.gone h
  · rw [hst, hf.dropped] at h
    rw [hst]
    exact hu h
  · rw [hst, hf.dropped, hr hn]
    exact hc.named hn

/-- A store that goes by no name and that nobody uses is dropped. -/
theorem custody_dropping (hs : s < w.stores.next) (hn : ¬ w.Named s)
    (hu : (w.store s).inUse = false) (hw : (custody s strict).inv w) :
    (custody s strict).Holds w .done (w.dropping s) := by
  obtain ⟨hsound, hc⟩ := hw
  have hk := Engine.keeping_dropStore hsound hs
  obtain ⟨hsh, ho⟩ := Engine.usage_dropping s w
  have hd : ((w.dropping s).store s).dropped := by rw [dropping, store_retiring]
  have hnames : (w.dropping s).Named s ↔ w.Named s := by rw [Named, Named, hk.names]
  obtain ⟨notes, hnotes, hh⟩ := hk.notes
  have hnotes' : ∀ y ∈ notes, y.custodial s = false := fun y hy => custodial_of_ofStore (hnotes y hy)
  refine ⟨⟨hk.sound hsound, ?_, hh ▸ hc.custodial.append hnotes', fun _ => hd, fun _ => ?_,
    fun h => absurd (hnames.mp h) hn, fun h _ => absurd (hnames.mp ⟨_, h⟩) hn, fun h => ?_⟩,
    hk.grows, hk.held ▸ List.prefix_refl _, fun _ => ⟨fun _ => ⟨hsh, ho⟩, fun _ => hk.held⟩⟩
  · rw [hk.held, hh, heldBy_append hnotes', hc.held]
  · rw [Store.inUse, hsh, ho]
    exact hu
  · rw [hk.stores] at h
    exact absurd hs (Nat.not_lt.mpr h)

namespace Engine

theorem dropStore_custody (hs : s < w.stores.next) (hn : ¬ w.Named s)
    (hu : (w.store s).inUse = false) : (dropStore s).KeepsAt (custody s strict) w :=
  keepsAt_of_eq (dropStore_apply s w) (custody_dropping hs hn hu)

theorem dropIfIdle_custody (hs : s < w.stores.next) : (dropIfIdle s).KeepsAt (custody s strict) w := by
  intro hw
  refine keepsAt_get_bind ?_ hw
  dsimp only
  split
  · next h =>
    simp only [Bool.and_eq_true, Bool.not_eq_true'] at h
    refine dropStore_custody hs (fun hn => ?_) h.2
    rw [(hw.2.named hn).2] at h
    cases h.1
  · exact keeps_pure () w

/-- A store that loses its name while it is in use is not dropped. -/
theorem replace_custody (hs : s < w.stores.next) (hn : ¬ w.Named s) :
    (replace s).KeepsAt (custody s strict) w := by
  have hf : Usage fun x => { x with replaced := true } :=
    ⟨fun _ => ⟨rfl, rfl, rfl, rfl⟩, fun _ => rfl, fun _ => rfl⟩
  have hst : (w.modifyStore s fun x => { x with replaced := true }).store s =
      { w.store s with replaced := true } := by rw [store_modifyStore, if_pos rfl]
  have hk := hf.keeping s w
  refine keepsAt_modify_bind (fun hw => ?_) fun hw => ?_
  · refine ⟨⟨hk.sound hw.1, hw.2.usage hf hs (absurd · hn) hw.2.unused⟩, hk.grows,
      List.prefix_refl _, fun _ => ⟨fun _ => ?_, fun _ => rfl⟩⟩
    rw [hst]
    exact ⟨rfl, rfl⟩
  · exact dropIfIdle_custody hs

/-- A call uses a store and afterwards gives the use back, which may be the end of the store. What
it does meanwhile leaves the store in use. -/
theorem using_custody {α : Type} {f g : Store → Store} {m : Engine α} (hf : Usage f)
    (hg : Usage g) (hr : ∀ x, (f x).replaced = x.replaced ∧ (g x).replaced = x.replaced)
    (hn : w.Named s) (hin : (f (w.store s)).inUse)
    (hback : ∀ x, x.sharers = (f (w.store s)).sharers → x.owned = (f (w.store s)).owned →
      (g x).sharers = (w.store s).sharers ∧ (g x).owned = (w.store s).owned)
    (hm : m.KeepsAt (custody s strict) (w.modifyStore s f)) :
    (modify (World.modifyStore s f) >>= fun _ => ensure m
      (modify (World.modifyStore s g) >>= fun _ => dropIfIdle s)).KeepsAt (custody s strict) w := by
  intro hw
  have hs := hw.1.named hn
  have hst : (w.modifyStore s f).store s = f (w.store s) := by rw [store_modifyStore, if_pos rfl]
  have hfk := hf.keeping s w
  have hinv : (custody s strict).inv (w.modifyStore s f) :=
    ⟨hfk.sound hw.1, hw.2.usage hf hs (fun _ => (hr _).1) fun hd => by
      rw [(hw.2.named hn).1] at hd
      cases hd⟩
  -- giving the use back brings nothing to an end but the store
  have hidle (v : World) : dropIfIdle s (v.modifyStore s g) =
      (.done (), (dropIfIdle s (v.modifyStore s g)).2) := by rw [dropIfIdle_apply]
  have hend (v : World) : (modify (World.modifyStore s g) >>= fun _ => dropIfIdle s) v =
      (.done (), (dropIfIdle s (v.modifyStore s g)).2) := hidle v
  have hgive {e : Ending} {v : World} (he : e ≠ .stuck)
      (hv : (custody s strict).Holds (w.modifyStore s f) e v) :
      (custody s strict).Holds w e (dropIfIdle s (v.modifyStore s g)).2 := by
    obtain ⟨hvinv, hvg, hheld, huses⟩ := hv
    obtain ⟨huses, hsame⟩ := huses he
    obtain ⟨hsh, hown⟩ := huses (by rwa [hst])
    rw [hst] at hsh hown
    have hs' := Nat.lt_of_lt_of_le hs hvg.stores
    have hused : (v.store s).inUse := by rwa [Store.inUse, hsh, hown]
    have hgk := hg.keeping s v
    have hu : (custody s strict).inv (v.modifyStore s g) :=
      ⟨hgk.sound hvinv.1, hvinv.2.usage hg hs' (fun _ => (hr _).2) fun hd => by
        rw [hvinv.2.unused hd] at hused
        cases hused⟩
    have hz := (dropIfIdle_custody (Nat.lt_of_lt_of_eq hs' hgk.stores.symm)).holds hu (hidle v)
    refine ⟨hz.1, hfk.grows.trans (hvg.trans (hgk.grows.trans hz.2.1)), hheld.trans hz.2.2.1,
      fun _ => ⟨fun _ => ?_, fun h => ((hz.2.2.2 (by decide)).2 h).trans (hsame h)⟩⟩
    obtain ⟨hsh', hown'⟩ := usage_dropIfIdle s (v.modifyStore s g)
    rw [store_modifyStore, if_pos rfl] at hsh' hown'
    have hb := hback _ hsh hown
    exact ⟨hsh'.trans hb.1, hown'.trans hb.2⟩
  have hres : (modify (World.modifyStore s f) >>= fun _ => ensure m
      (modify (World.modifyStore s g) >>= fun _ => dropIfIdle s)) w =
        ensure m (modify (World.modifyStore s g) >>= fun _ => dropIfIdle s)
          (w.modifyStore s f) := rfl
  rw [hres, ensure_apply hend]
  rcases hv : m (w.modifyStore s f) with ⟨a | text | _, v⟩
  · exact hgive (e := .done) (by decide) (hm.holds hinv hv)
  · exact hgive (e := .panicked) (by decide) (hm.holds hinv hv)
  · obtain ⟨hvinv, hvg, hheld, -⟩ := hm.holds hinv hv
    exact ⟨hvinv, hfk.grows.trans hvg, hheld, fun h => absurd rfl h⟩

end Engine

namespace Performing

variable {call : Nat → Engine Unit} {t : Nat}

theorem newStore_custody (name : String) (plan : StorePlan) :
    (newStore name plan).run.Keeps (custody s strict) := by
  refine newStore_named And.left
    (fun config _ ha => Engine.buildStore_keepsAt (custody_housing s strict) config trivial ha)
    (fun {w} name t ht hn hd hr hw => ?_) (fun {w name t old} ho hne hw => ?_) name plan
  · refine custody_renaming (valid_naming ht) (fun {n n'} h h' => ?_) (fun {n} h => ?_) hw
    · rcases find?_naming h with ⟨he, ht⟩ | ⟨-, h⟩ <;>
        rcases find?_naming h' with ⟨he', ht'⟩ | ⟨-, h'⟩
      · exact he.trans he'.symm
      · exact absurd ⟨_, ht ▸ h'⟩ hn
      · exact absurd ⟨_, ht' ▸ h⟩ hn
      · exact hw.2.single h h'
    · rcases find?_naming h with ⟨-, rfl⟩ | ⟨-, h⟩
      · exact ⟨hd, hr⟩
      · exact hw.2.named ⟨n, h⟩
  · have hlt := hw.1.names.stores ho
    by_cases hs : old = s
    · subst hs
      refine Engine.replace_custody (w := w.naming name t) hlt ?_
      rintro ⟨n, h⟩
      rcases find?_naming h with ⟨-, rfl⟩ | ⟨hn, h⟩
      · exact hne rfl
      · exact hn (hw.2.single h ho)
    · exact Engine.replace_keepsAt (w := w.naming name t) (custody_keeping s strict).toTending hs hlt

theorem dropStore_custody (name : String) : (dropStore name).run.Keeps (custody s strict) := by
  refine dropStore_named (fun {w name t} ht hw => ?_) (fun {w name t} ht hu hw => ?_) name
  · exact custody_renaming valid_unnaming
      (fun h h' => hw.2.single (find?_unnaming h).2 (find?_unnaming h').2)
      (fun h => hw.2.named ⟨_, (find?_unnaming h).2⟩) hw
  · have hlt := hw.1.names.stores ht
    by_cases hs : t = s
    · subst hs
      refine Engine.dropStore_custody (w := w.unnaming name) hlt ?_ hu
      rintro ⟨n, h⟩
      obtain ⟨hne, h⟩ := find?_unnaming h
      exact hne (hw.2.single h ht)
    · exact Engine.dropStore_keepsAt (w := w.unnaming name) (custody_keeping s strict).toTending hs hlt

theorem shared_custody {α : Type} {m : Engine α} (hn : w.Named t)
    (hm : m.KeepsAt (custody s strict) (w.share t)) :
    (Engine.modify (World.share t) >>= fun _ => Engine.ensure m (Engine.endSharing t)).KeepsAt
      (custody s strict) w := by
  by_cases ht : t = s
  · subst ht
    refine Engine.using_custody usage_share usage_unshare (fun _ => ⟨rfl, rfl⟩) hn ?_
      (fun x hs ho => ⟨?_, ho⟩) hm
    · simp [Store.inUse]
    · change x.sharers - 1 = _
      rw [hs]
      rfl
  · exact fun hw => shared_keepsAt (custody_keeping s strict).toTending ht (hw.1.named hn) hm hw

theorem owned_custody {α : Type} {m : Engine α} (hn : w.Named t)
    (hu : (w.store t).inUse = false) (hm : m.KeepsAt (custody s strict) (w.own t)) :
    (Engine.modify (World.own t) >>= fun _ => Engine.ensure m (Engine.endOwning t)).KeepsAt
      (custody s strict) w := by
  by_cases ht : t = s
  · subst ht
    refine Engine.using_custody (usage_own true) (usage_own false) (fun _ => ⟨rfl, rfl⟩) hn rfl
      (fun x hs _ => ⟨hs, ?_⟩) hm
    simp only [Store.inUse, Bool.or_eq_false_iff] at hu
    exact hu.1.symm
  · exact fun hw => owned_keepsAt (custody_keeping s strict).toTending ht (hw.1.named hn) hm hw

end Performing

end GuardedStore
