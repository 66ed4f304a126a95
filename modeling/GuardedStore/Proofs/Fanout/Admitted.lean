import GuardedStore.Proofs.Fanout.Stores
import GuardedStore.Proofs.Run.Moments

/-!
Every step keeps the law of those who follow a source, so it holds from any moment of a run to any
later one.
-/
namespace GuardedStore

open World

variable {w : World} {s : Nat}

namespace World

variable {domain : Option Nat} {source : Source}

theorem fanout_subscribed (domain : Option Nat) (source : Source) (r : Nat)
    (hw : fanout.inv w) : fanout.Holds w .done
      ((w.mark (.subscribed domain source)).subscribing domain source (.dependent r)) := by
  have hq := (w.quiet_record (h := .subscribed domain source) rfl).trans
    (quiet_subscribing (w.mark (.subscribed domain source)) domain source (x := .dependent r) nofun)
  have hh : ((w.mark (.subscribed domain source)).subscribing domain source
      (.dependent r)).history = .subscribed domain source :: w.history := by cases domain <;> rfl
  have hst (t : Nat) : ((w.mark (.subscribed domain source)).subscribing domain source
      (.dependent r)).store t = w.store t := by cases domain <;> rfl
  have hf {d : Nat} {src : Source} (hne : ¬ (domain = some d ∧ source = src)) :
      (((w.mark (.subscribed domain source)).subscribing domain source (.dependent r)).domain
        d).followers src = (w.domain d).followers src := by
    rw [Domain.followers, subscribers_subscribing, if_neg fun h => hne ⟨h.1, h.2.2.symm⟩]
    rfl
  refine ⟨⟨hq.sound hw.1, fun t ht => ?_⟩, hq.grows, fun {d src} _ he => hf fun h => ?_,
    fun {d src} _ he => ?_⟩
  · rw [hq.stores] at ht
    rw [hst, hh]
    exact hw.2 t ht
  · have hadd : stirrings d src (.subscribed domain source :: w.history) =
        stirrings d src w.history + 1 := congrArg (stirrings d src w.history + ·)
      (if_pos (decide_eq_true h))
    rw [hh] at he
    omega
  · rw [hf fun h => ?_]
    rw [hh, h.1, h.2, enlistments, List.count_cons_self, enlistments] at he
    omega

theorem fanout_unsubscribed (domain : Option Nat) (source : Source) (hw : fanout.inv w) :
    fanout.Holds w .done
      ((w.mark (.unsubscribed domain source)).unsubscribing domain source) := by
  have hq := (w.quiet_record (h := .unsubscribed domain source) rfl).trans
    (quiet_unsubscribing (w.mark (.unsubscribed domain source)) domain source)
  have hh : ((w.mark (.unsubscribed domain source)).unsubscribing domain source).history =
      .unsubscribed domain source :: w.history := by cases domain <;> rfl
  have hst (t : Nat) : ((w.mark (.unsubscribed domain source)).unsubscribing domain
      source).store t = w.store t := by cases domain <;> rfl
  have hf (d : Nat) (src : Source) :
      (((w.mark (.unsubscribed domain source)).unsubscribing domain source).domain
          d).followers src =
        if domain = some d ∧ src = source then [] else (w.domain d).followers src :=
    followers_unsubscribing _ domain source src d
  refine ⟨⟨hq.sound hw.1, fun t ht => ?_⟩, hq.grows, fun {d src} _ he => ?_, fun {d src} _ _ => ?_⟩
  · rw [hq.stores] at ht
    rw [hst, hh]
    exact hw.2 t ht
  · rw [hf, if_neg fun h => ?_]
    have hadd : stirrings d src (.unsubscribed domain source :: w.history) =
        stirrings d src w.history + 1 := congrArg (stirrings d src w.history + ·)
      (if_pos (decide_eq_true ⟨h.1, h.2.symm⟩))
    rw [hh] at he
    omega
  · rw [hf]
    split
    · exact List.nil_sublist _
    · exact List.Sublist.refl _

theorem unstirred_withDomain {label : String} {mode : DomainMode} (hm : mode.Fresh) :
    w.Unstirred (w.withDomain { label, mode }) where
  sound := sound_withDomain hm
  grows := grows_withDomain _
  stores := rfl
  affinity _ := rfl
  followers {d source} hd := by rw [domain_withDomain, if_neg (Nat.ne_of_lt hd)]
  history := ⟨[], by simp, rfl⟩

end World

namespace Engine

variable {call : Nat → Engine Unit} (hc : ∀ r, (call r).Keeps fanout)

include hc

theorem write_fanout (item : Nat) (value : Value) : (write call item value).Keeps fanout := by
  intro w
  refine write_keepsAt fanout_plain hc value fun pass v _ _ => ?_
  exact storeValue_keepsAt (unstirred_of_same (sound_issuing item _) (grows_issuing item _) rfl rfl
    ⟨[_, _, _], by simp [Happening.binds], rfl⟩).holds (forward_keeps fanout_delivering hc _ _ _)

end Engine

namespace Performing

variable {α : Type}

theorem share_fanout : fanout.inv w → fanout.Holds w .done (w.share s) :=
  Engine.modifyStore_fanout (f := fun x => { x with sharers := x.sharers + 1 })
    (fun _ => ⟨rfl, rfl, rfl, rfl⟩) w

theorem own_fanout : fanout.inv w → fanout.Holds w .done (w.own s) :=
  Engine.modifyStore_fanout (f := fun x => { x with owned := true })
    (fun _ => ⟨rfl, rfl, rfl, rfl⟩) w

theorem shared_fanout {m : Engine α} (hs : s < w.stores.next) (hm : m.KeepsAt fanout (w.share s)) :
    (Engine.modify (World.share s) >>= fun _ => Engine.ensure m (Engine.endSharing s)).KeepsAt
      fanout w := by
  refine sharing_kept share_fanout hm fun o v _ hv => ?_
  refine Engine.thenDrop_fanout (Nat.lt_of_lt_of_le hs hv.2.1.stores) fun _ => ?_
  exact ⟨rfl, rfl, rfl, rfl⟩

theorem owned_fanout {m : Engine α} (hs : s < w.stores.next) (hm : m.KeepsAt fanout (w.own s)) :
    (Engine.modify (World.own s) >>= fun _ => Engine.ensure m (Engine.endOwning s)).KeepsAt
      fanout w := by
  refine Engine.keepsAt_modify_bind own_fanout fun _ => hm.ensure fun o v _ hv _ => ?_
  refine Engine.thenDrop_fanout (Nat.lt_of_lt_of_le hs hv.2.1.stores) fun _ => ?_
  exact ⟨rfl, rfl, rfl, rfl⟩

theorem newStore_fanout (name : String) (plan : StorePlan) :
    (newStore name plan).run.Keeps fanout :=
  newStore_kept And.left fanout_renames (fun config _ => Engine.buildStore_fanout config)
    (fun hs => Engine.thenDrop_fanout hs fun _ => ⟨rfl, rfl, rfl, rfl⟩) name plan

theorem dropStore_fanout (name : String) : (dropStore name).run.Keeps fanout :=
  dropStore_kept And.left fanout_renames (fun hs _ => Engine.dropStore_fanout hs) name

theorem create_fanout {call : Nat → Engine Unit} (hc : ∀ r, (call r).Keeps fanout)
    (storeName key name : String) (type : ValueType) (argument : Literal)
    (convert : Option ArgumentType) (plan : FactoryPlan Script) :
    (create call storeName key name type argument convert plan).run.Keeps fanout := by
  intro w hw
  refine (looks_storeNamed _).keepsAt_bind (fun s hs => owning_kept fun _ => ?_) hw
  have hlt := hw.1.named hs
  refine owned_fanout hlt fun hw' => keepsAt_bind ((factory_brings fanout_basics s plan).1 _)
    (fun f v hr hv => ?_) hw'
  have hf : v.Supplies fanout f := (factory_brings fanout_basics s plan).2 hw' hr f rfl
  have hlt' : s < v.stores.next := Nat.lt_of_lt_of_le hlt hv.2.1.stores
  refine (looks_orUnreadable _).keepsAt_bind fun value _ => ?_
  refine keepsAt_bind (orFault_keepsAt (Engine.create_fanout (Engine.write_fanout hc) name value
    hlt' hf)) fun id u _ _ => looks_world.keepsAt_bind fun x _ => ?_
  exact keepsAt_bind (rename_keepsAt fanout_basics rfl rfl (fun hn => { hn with }) .inl)
    fun _ v _ _ => keeps_pure _ v

theorem destroy_fanout (key : String) (store : Option String) :
    (destroy key store).run.Keeps fanout := by
  intro w hw
  refine (looks_named _ _ _).keepsAt_bind (fun k _ => (looks_presentedTo k store).keepsAt_bind
    fun s hs => owning_kept fun _ => ?_) hw
  have hlt := hw.1.named hs
  exact owned_fanout hlt (keepsAt_bind (orFault_keepsAt (Engine.destroy_fanout k.key hlt))
    fun _ v _ _ => keeps_pure _ v)

end Performing

/-- The law of those who follow a source admits the operations of the engine. -/
theorem fanout_admits {call : Nat → Engine Unit} (hc : ∀ r, (call r).Keeps fanout) :
    Engine.Admits call fanout fun w i => i < w.items.next where
  toBasics := fanout_basics
  newDomain hm _ := (unstirred_withDomain hm).holds
  clear _ _ := (unstirred_sameTable Domain.sameTable_clear).holds
  runPending _ _ := Engine.runPending_keeps fanout_delivering hc _ _
  trigger event _ := Engine.trigger_keeps fanout_delivering hc _ event _
  subscribe {_ domain} source d _ := Engine.keepsAt_of_eq
    ((Engine.bind_of_done (m := Engine.record _) rfl).trans (Engine.subscribe_apply ..))
    (fanout_subscribed domain source d)
  unsubscribe {_ domain} source _ := Engine.keepsAt_of_eq
    ((Engine.bind_of_done (m := Engine.record _) rfl).trans (Engine.unsubscribe_apply ..))
    (fanout_unsubscribed domain source)
  prompt event _ := Engine.prompt_keeps fanout_delivering.toSignalling hc trivial event _
  onExecute hook _ := Engine.onExecute_keeps fanout_delivering.toSignalling trivial hook _
  executeStore _ _ := Engine.executeStore_keeps fanout_delivering.toSignalling hc trivial _
  triggerStore hs := Engine.triggerStore_keepsAt fanout_delivering hc hs
  setAffinity hs _ ha hw := Engine.setAffinity_fanout (hw.1.named hs) ha hw
  newStore := Performing.newStore_fanout
  dropStore := Performing.dropStore_fanout
  sharing hs _ hm hw := Performing.shared_fanout (hw.1.named hs) hm hw
  usable {w s _} hw _ _ hi := ((World.quiet_share s w).sound hw.1 |>.arenas hi).1
  still_usable hi _ hw := Nat.lt_of_lt_of_le hi hw.2.1.items
  write v _ _ := Engine.write_fanout hc _ v _
  read _ := Engine.readWithin_keeps fanout_plain hc
    (fun _ _ _ _ => Engine.unstirred_keepsAt (unstirred_mark rfl)) _ _ _
  create := Performing.create_fanout hc
  destroy := Performing.destroy_fanout
  enter := Performing.enter_plain fanout_plain hc
  exit := Performing.exit_plain fanout_plain hc
  chainWait := Performing.chainWait_plain fanout_plain hc fun muted =>
    Engine.bookkeeping_keeps fanout_delivering.toSignalling fun w =>
      ⟨w.modelDepth, w.triggerDepth, muted, rfl⟩
  ask _ _ _ _ := Engine.visit_ask_keeps fanout_plain hc _ _ _ _
  tell _ _ _ _ _ := Engine.visit_tell_keeps fanout_plain hc _ _ _ _ _

end GuardedStore
