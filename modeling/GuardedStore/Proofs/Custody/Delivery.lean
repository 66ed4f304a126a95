import GuardedStore.Proofs.Custody.Law
import GuardedStore.Proofs.Rounds.Course

/-!
Deliveries keep custody.

A delivery hands an event to those who can be woken, which a store that is gone can be only while
somebody else holds it. Whoever is handed an event is held until the delivery is over, and so is safe
whenever it is notified or executes.
-/
namespace GuardedStore

open World

variable {s d : Nat} {strict : Prop} {w : World}

/-- Who is handed an event is alive, and held from then on. -/
theorem custody_dealing (d : Nat) (e : Event) (hw : (custody s False).inv w) :
    (custody s False).Holds w .done (w.dealing d e) := by
  have hq := (quiet_record (h := .handed d e (w.liveSubscribers d e.source)) rfl w).trans
    (quiet_takeHold (w.liveSubscribers d e.source) _)
  have hc := hw.2
  have hgone : Gone s (w.dealing d e).history ↔ Gone s w.history :=
    gone_cons rfl
  refine ⟨⟨hq.sound hw.1, ?_, ?_, fun h => hc.gone (hgone.mp h), hc.unused, hc.named, hc.single,
    fun h => ⟨(hc.unborn h).1, hgone.not.mpr (hc.unborn h).2⟩⟩, hq.grows,
    List.prefix_append _ _, fun _ => ⟨.refl s w, False.elim⟩⟩
  · exact congrArg (· ++ w.liveSubscribers d e.source) hc.held
  · refine hc.custodial.cons fun hr hg => ?_
    have ha := (List.mem_filter.mp hr).2
    rw [alive, hc.gone hg] at ha
    rw [← hc.held]
    simpa using ha

/-- Whoever is let go of was not held before. -/
theorem custody_letGo {v : World} {e : Ending} (hv : (custody s False).Holds w e v) :
    (custody s strict).Holds w e (v.letGo d w.held) := by
  obtain ⟨⟨hs, hc⟩, hg, hp, hu⟩ := hv
  have hq := quiet_letGo d w.held v
  have hgone : Gone s (v.letGo d w.held).history ↔ Gone s v.history :=
    gone_cons rfl
  refine ⟨⟨hq.sound hs, rfl, ?_, fun h => hc.gone (hgone.mp h), hc.unused, hc.named, hc.single,
    fun h => ⟨(hc.unborn h).1, hgone.not.mpr (hc.unborn h).2⟩⟩, hg.trans hq.grows,
    List.prefix_refl _, fun he => ⟨(hu he).1, fun _ => rfl⟩⟩
  exact hc.custodial.cons fun hr _ => hc.held ▸ hp.subset hr

namespace Engine

variable {call : Nat → Engine Unit}

/-- A delivery keeps custody if what it does does. -/
theorem releasing_custody {α : Type} {m : Engine α} (hm : m.KeepsAt (custody s False) w) :
    (releasing d m).KeepsAt (custody s strict) w := by
  intro hw
  rw [releasing_apply]
  rcases h : m w with ⟨a | text | _, v⟩
  · exact custody_letGo (hm.holds hw h)
  · exact custody_letGo (hm.holds hw h)
  · obtain ⟨hv, hg, hp, -⟩ := hm.holds hw h
    exact ⟨hv, hg, hp, fun h => absurd rfl h⟩

theorem modifyStore_custody {t : Nat} {f : Store → Store} (hf : ∀ x, SameHouse x (f x)) :
    (modify (World.modifyStore t f)).Keeps (custody s strict) := fun w =>
  keepsAt_modify fun hw => (spares_modifyStore hf).holds
    ((w.quiet_modifyStore_of_same t fun x => ⟨(hf x).id, (hf x).arena, (hf x).affinity⟩).sound hw.1)
    hw

theorem modifySignal_custody (t : Nat) (f : Signal → Signal) :
    (modify (World.modifySignal t f)).Keeps (custody s strict) :=
  modifyStore_custody fun _ => ⟨rfl, rfl, rfl, rfl, rfl, rfl, rfl, rfl⟩

theorem record_custody {y : Happening} (hc : y.custodial s = false) (hd : y.drops s = false) :
    (record y).Keeps (custody s strict) := fun _ =>
  keepsAt_modify fun hw => (spares_mark hc hd).holds (sound_mark y hw.1) hw

theorem modifyDomain_custody {f : Domain → Domain} (hf : ∀ d : Domain, d.SameTable (f d)) :
    (modifyDomain d f).Keeps (custody s strict) := fun w =>
  have hq := w.quiet_sameTable d hf
  keepsAt_modify fun hw => (spares_of_stores hq.grows rfl rfl rfl ⟨[], by simp, rfl⟩).holds
    (hq.sound hw.1) hw

theorem onExecute_custody (t : Nat) (hook : ModelHook) : (onExecute t hook).Keeps (custody s strict) := by
  refine keeps_get_bind fun w => ?_
  split
  · exact keepsAt_wait_bind custody_stuck
  · exact (modifySignal_custody t _).bind (fun _ => record_custody rfl rfl) w

/-- A model hook of the store is run only while the store is safe. -/
theorem ran_custody {t : Nat} (hook : ModelHook) (n : Nat) (hs : t = s → w.Safe s) :
    (record (.ran t hook n)).KeepsAt (custody s strict) w := by
  refine keepsAt_modify fun hw => ?_
  by_cases ht : t = s
  · have hc := hw.2
    have hgone : Gone s (w.mark (.ran t hook n)).history ↔ Gone s w.history :=
      gone_cons rfl
    refine ⟨⟨sound_mark _ hw.1, hc.held, hc.custodial.cons fun _ => (hs ht).held hc,
      fun h => hc.gone (hgone.mp h), hc.unused, hc.named, hc.single,
      fun h => ⟨(hc.unborn h).1, hgone.not.mpr (hc.unborn h).2⟩⟩, grows_mark _ w,
      List.prefix_refl _, fun _ => ⟨.refl s w, fun _ => rfl⟩⟩
  · have hn : (Happening.ran t hook n).custodial s = false := decide_eq_false ht
    exact (spares_mark hn rfl).holds (sound_mark _ hw.1) hw

section Calls

variable (hc : ∀ r, (call r).Keeps (custody s strict))

include hc

theorem notify_custody (x : Subscriber) (e : Event) : (notify call x e).Keeps (custody s strict) := by
  cases x with
  | store t => exact (record_custody rfl rfl).bind fun _ => modifySignal_custody t _
  | dependent r =>
    exact keeps_get_bind fun w => ((report_keeps (custody_signalling s strict) rfl).bind fun _ =>
      callAny_keeps hc _) w

theorem prompt_custody (t : Nat) (e : Event) : (prompt call t e).Keeps (custody s strict) :=
  (record_custody rfl rfl).bind fun _ => notify_custody hc (.store t) e

theorem runHook_custody {t : Nat} (n : Nat) (hook : ModelHook) (hs : t = s → w.Safe s) :
    (runHook call t n hook).KeepsAt (custody s strict) w := by
  have c := custody_signalling s strict
  have hd (n : Nat) : (modify fun w => { w with modelDepth := n }).Keeps (custody s strict) :=
    bookkeeping_keeps c fun _ => ⟨_, _, _, rfl⟩
  refine (ran_custody hook n hs).bind fun _ v _ _ => Keeps.bind (report_keeps c rfl) (fun _ =>
    keeps_get_bind fun w => Keeps.bind (hd _) (fun _ => ?_) w) v
  exact (callAny_keeps hc _).ensure (hd _)

theorem runHooks_custody {t : Nat} (n : Nat) (hooks : List ModelHook) :
    ∀ {w : World}, (t = s → w.Safe s) →
      (hooks.forM (runHook call t n)).KeepsAt (custody s strict) w := by
  induction hooks with
  | nil => exact fun _ => keeps_pure () _
  | cons hook hooks ih =>
    exact fun hs => (runHook_custody hc n hook hs).bind fun _ v _ hv =>
      ih fun ht => (hs ht).mono hv

theorem executeStore_custody {t : Nat} (hs : t = s → w.Safe s) :
    (executeStore call t).KeepsAt (custody s strict) w := by
  refine keepsAt_get_bind ?_
  dsimp only
  split
  · exact keeps_pure _ w
  · refine (modifySignal_custody t _ w).bind fun _ u _ hu =>
      (record_custody rfl rfl u).bind fun _ v _ hv => ?_
    split
    · exact keepsAt_wait_bind custody_stuck
    · refine (modifySignal_custody t _ v).bind fun _ x _ hx => KeepsAt.bind ?_ fun _ y _ _ => ?_
      · refine KeepsAt.ensure (runHooks_custody hc _ _ fun ht => ?_) fun _ v _ _ _ =>
          modifySignal_custody t _ v
        exact (((hs ht).mono hu).mono hv).mono hx
      · exact ((modifySignal_custody t _).bind fun _ =>
          (record_custody rfl rfl).bind fun _ => keeps_pure _) y

theorem execute_custody {x : Subscriber} (hx : x = .store s → .store s ∈ w.held) :
    (execute call x).KeepsAt (custody s strict) w := by
  cases x with
  | store t =>
    refine (executeStore_custody hc ?_).bind fun _ v _ _ => keeps_pure () v
    rintro rfl
    exact .inl (hx rfl)
  | dependent r =>
    exact keepsAt_get_bind (((report_keeps (custody_signalling s strict) rfl).bind fun _ =>
      callAny_keeps hc _) w)

omit hc in
/-- What is done about one subscriber after another, all of whom are held. -/
theorem forM_custody {f : Subscriber → Engine Unit} (xs : List Subscriber)
    (hf : ∀ x w, (x = .store s → .store s ∈ w.held) → (f x).KeepsAt (custody s strict) w) :
    ∀ {w : World}, (.store s ∈ xs → .store s ∈ w.held) → (xs.forM f).KeepsAt (custody s strict) w := by
  induction xs with
  | nil => exact fun _ => keeps_pure () _
  | cons x xs ih =>
    intro w hs
    refine (hf x w fun hx => hs (hx ▸ List.mem_cons_self)).bind fun _ v _ hv => ih fun hm => ?_
    exact hv.2.2.1.subset (hs (List.mem_cons_of_mem x hm))

theorem deliverAtOnce_custody (e : Event) {xs : List Subscriber}
    (hx : .store s ∈ xs → .store s ∈ w.held) :
    (deliverAtOnce call e xs).KeepsAt (custody s strict) w :=
  forM_custody xs (fun x w hx => (notify_custody hc x e w).bind fun _ _ _ hv =>
    execute_custody hc fun h => hv.2.2.1.subset (hx h)) hx

theorem deliver_custody (label : String) (i : Immediate) (e : Event) :
    (deliver call d label i e).Keeps (custody s strict) := by
  have c := custody_signalling s strict
  have hs (b : Bool) : (modifyDomain d fun d => d.setDelivering b).Keeps (custody s strict) :=
    modifyDomain_custody fun d => d.sameTable_setDelivering b
  refine keeps_get_bind fun w => ?_
  split
  · exact report_keeps c rfl w
  · refine Keeps.bind (report_keeps c rfl) (fun _ => (hs true).bind fun _ => ?_) w
    refine Keeps.ensure (fun w => releasing_custody ?_) (hs false)
    have hc' (r : Nat) : (call r).Keeps (custody s False) := (hc r).custody_weaken
    refine (callAny_keeps hc' _ w).bind fun _ v _ _ => keepsAt_get_bind ?_
    -- handing the event out and taking hold are one
    have hdeal : (do
        record (.handed d e (v.liveSubscribers d e.source))
        hold (v.liveSubscribers d e.source) : Engine Unit).KeepsAt (custody s False) v :=
      keepsAt_of_eq rfl (custody_dealing d e)
    refine (hdeal.bind (f := fun _ => deliverAtOnce call e (v.liveSubscribers d e.source))
      fun _ u hu _ => deliverAtOnce_custody hc' e fun hm => ?_).congr rfl
    cases hu
    exact List.mem_append_right _ hm

theorem forward_custody (domain : Option Nat) (e : Event) :
    (forward call domain e).Keeps (custody s strict) := by
  have hn (n : Notice) (hn : (Happening.notice n).drops s = false) :
      (notice n).Keeps (custody s strict) := record_custody rfl hn
  cases domain with
  | none => exact (hn _ rfl).bind fun _ => keeps_pure _
  | some r =>
    have ha : (modifyDomain r fun d => d.accept e).Keeps (custody s strict) :=
      modifyDomain_custody fun d => d.sameTable_accept e
    refine keeps_get_bind fun w => ?_
    dsimp only
    split
    · exact (ha w).bind fun _ v _ _ => keeps_pure _ v
    · exact (hn _ rfl w).bind fun _ v _ _ => (ha v).bind fun _ v _ _ => keeps_pure _ v
    · exact (deliver_custody hc _ _ e w).bind fun _ v _ _ => keeps_pure _ v

theorem trigger_custody (issuer : Issuer) (domain : Option Nat) (e : Event) :
    (trigger call issuer domain e).Keeps (custody s strict) :=
  (record_custody rfl rfl).bind fun _ => forward_custody hc domain e

theorem triggerStore_custody (t : Nat) : (triggerStore call t).Keeps (custody s strict) := by
  have hm (f : Store → Store) (hf : ∀ x, SameHouse x (f x)) :
      (modify (World.modifyStore t f)).Keeps (custody s strict) := modifyStore_custody hf
  refine Keeps.bind (hm _ fun _ => ?_) fun _ => keeps_get_bind fun v =>
    KeepsAt.ensure (trigger_custody hc _ _ _ v) fun _ u _ _ _ => hm _ (fun _ => ?_) u
  · exact ⟨rfl, rfl, rfl, rfl, rfl, rfl, rfl, rfl⟩
  · exact ⟨rfl, rfl, rfl, rfl, rfl, rfl, rfl, rfl⟩

theorem storeValue_custody (item : Nat) (a : Access) :
    (storeValue call item a).Keeps (custody s strict) := fun w =>
  storeValue_keepsAt (fun hw => (spares_of_stores (grows_issuing item a) rfl rfl rfl
    ⟨[_, _, _], by simp [Happening.custodial, Happening.drops], rfl⟩).holds
      (sound_issuing item a hw.1) hw) (forward_custody hc _ _ _)

theorem write_custody (item : Nat) (value : Value) :
    (write call item value).Keeps (custody s strict) :=
  fun _ => write_keepsAt (custody_plain s strict) hc value fun _ v _ _ => storeValue_custody hc item _ v

omit hc in
/-- Those notified in the course of a delivery are held to its end. -/
theorem deliverAll_custody (hc : ∀ r, (call r).Keeps (custody s False)) (events : List Event) :
    ∀ (p : Progress) {w : World}, (deliverAll call d p events).KeepsAt (custody s False) w ∧
      ∀ p' v, (custody s False).inv w → (.store s ∈ p.woken → .store s ∈ w.held) →
        deliverAll call d p events w = (.done p', v) → .store s ∈ p'.woken → .store s ∈ v.held := by
  induction events with
  | nil =>
    refine fun p w => ⟨keeps_pure p w, ?_⟩
    rintro p' v - hp ⟨⟩
    exact hp
  | cons e events ih =>
    intro p w
    have heq : deliverAll call d p (e :: events) w =
        ((w.liveSubscribers d e.source).forM (notify call · e) >>= fun _ =>
          deliverAll call d (p.tell (w.liveSubscribers d e.source)) events) (w.dealing d e) := by
      change (notifyAll call e p (w.liveSubscribers d e.source) >>= fun p =>
        deliverAll call d p events) (w.dealing d e) = _
      rw [notifyAll_eq, bind_assoc]
      rfl
    have hn := keeps_forM fun x (_ : x ∈ w.liveSubscribers d e.source) => notify_custody hc x e
    refine ⟨fun hw => ?_, fun p' v hw hp h hm => ?_⟩
    · rw [heq]
      have hdeal := custody_dealing d e hw
      exact hdeal.done_trans hw (((hn _).bind fun _ v _ _ => (ih _).1) hdeal.1)
    · rw [heq] at h
      obtain ⟨_, u, hu, h⟩ := done_of_bind h
      have hdeal := custody_dealing d e hw
      have hvu := (hn _).holds hdeal.1 hu
      refine (ih _).2 p' v hvu.1 (fun hm => hvu.2.2.1.subset ?_) h hm
      rcases mem_woken_of_tell _ hm with hm | hm
      · exact List.mem_append_left _ (hp hm)
      · exact List.mem_append_right _ hm

theorem runPending_custody : (runPending call d).KeepsAt (custody s strict) w := by
  have hq := w.quiet_taking d
  have htaken (hw : (custody s strict).inv w) : (custody s strict).Holds w .done (w.taking d) :=
    (spares_of_stores hq.grows rfl rfl rfl
      ⟨[.taken d (w.domain d).queue], by simp [Happening.custodial, Happening.drops], rfl⟩).holds
      (hq.sound hw.1) hw
  refine KeepsAt.congr (keepsAt_modify_bind (g := fun _ => runTaken call d (w.domain d).label
    (w.domain d).queue) htaken fun _ => ?_) (runPending_apply call d w)
  have hc' (r : Nat) : (call r).Keeps (custody s False) := (hc r).custody_weaken
  unfold runTaken
  split
  · exact keeps_pure _ _
  refine (releasing_custody ?_).bind fun stats v _ _ => ?_
  · refine fun hw => KeepsAt.bind (deliverAll_custody hc' _ {}).1 (fun p v hv hv' => ?_) hw
    have hheld := (deliverAll_custody hc' _ {}).2 p v hw (by simp) hv
    exact (forM_custody _ (fun x w hx => execute_custody hc' hx) hheld).bind fun _ v _ _ =>
      keeps_pure _ v
  · exact ((modifyDomain_custody fun d => d.sameTable_countRun stats).bind fun _ =>
      (record_custody rfl rfl).bind fun _ => keeps_pure _) v

end Calls

end Engine

end GuardedStore
