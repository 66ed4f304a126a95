import GuardedStore.Proofs.Run.Guided
import GuardedStore.Proofs.Run.Signalling
import GuardedStore.Proofs.Run.Storekeeping

/-!
Laws that deliveries are no concern of.

What is done to deliver events, to run stores and to change who owns what comes down to quiet
changes and to calls of scripts. A law that allows quiet changes is kept by all of it if the scripts
keep it.
-/
namespace GuardedStore

/-- The law allows quiet changes, new stores, new items with `V`, new names, and waiting. -/
structure Law.Calm (L : Law) (V : World → Item → Prop := fun _ _ => True) : Prop where
  sound {w} : L.inv w → w.Sound
  grows {w e w'} : L.rel w e w' → w.Grows w'
  quiet {w w' : World} : w.Quiet w' → L.inv w → L.Holds w .done w'
  stuck {w} : L.inv w → L.rel w .stuck w
  rename : L.Renames
  newStore {w : World} {s : Store} : s.id = .drawn w.stores.next → s.arena.toList = [] →
    w.Offers s.affinity → (Engine.newStore s).KeepsAt L w
  newItem {w : World} {i : Item} {s} : s < w.stores.next → i.descriptor.store = .drawn s →
    w.Has i.chain → w.Offers i.affinity → i.writes = 0 → V w i → (Engine.newItem i).KeepsAt L w

namespace Law.Calm

variable {L : Law} {V : World → Item → Prop} (c : L.Calm V)

include c

theorem storekeeping : L.Storekeeping (fun _ => True) V where
  sound := c.sound
  grows := c.grows
  tending _ h := c.quiet h.toQuiet
  keeping _ h := c.quiet h.toQuiet
  stuck := c.stuck
  newStore _ hid ha hd _ := c.newStore hid ha hd
  newItem _ := c.newItem

theorem delivering : L.Delivering where
  signalling h := c.quiet h.toQuiet
  stuck := c.stuck
  table h := c.quiet (World.quiet_sameTable _ _ h)
  taken _ _ := c.quiet (World.quiet_record rfl _)
  handing _ _ := c.quiet (World.quiet_record rfl _)
  takeHold subs := c.quiet (World.quiet_takeHold subs _)
  letGo held _ := c.quiet (World.quiet_letGo _ held _)
  outside _ _ := c.quiet (World.quiet_record rfl _)
  byStore _ _ := c.quiet (World.quiet_record rfl _)

end Law.Calm

/-- A law that deliveries are no concern of admits all operations of the engine if it is kept by
guarded accesses, by panics and by what makes aspects and domains, and if all that items are made of
is as it demands. -/
theorem Law.Calm.admitting {call : Nat → Engine Unit} {L : Law} {V : World → Item → Prop}
    (c : L.Calm V) (hc : ∀ r, (call r).Keeps L)
    (idle : ∀ {w w' : World}, w.Idle w' → L.inv w → L.Holds w .done w')
    (panic : ∀ text, (Engine.panic text).Keeps L)
    (newAspect : ∀ {a}, a.Fresh → (Engine.newAspect a).Keeps L)
    (newDomain : ∀ {label mode}, mode.Fresh → (Engine.newDomain { label, mode }).Keeps L)
    (write : ∀ {w : World} {i} v, i < w.items.next → v.type = (w.item i).descriptor.type →
      (Engine.write call i v).KeepsAt L w)
    (read : ∀ {w : World} {i}, i < w.items.next → (Engine.read call i).KeepsAt L w)
    (builds : ∀ {w v : World} {s plan f} value g, L.inv w →
      (Performing.factory s plan).run w = (.done (.ok f), v) →
      (v.modifyStore s g).Builds V value.type (pure value) f)
    (enter : ∀ chain phase passage plan,
      (Performing.enter call chain phase passage plan).run.Keeps L)
    (exit : ∀ passage, (Performing.exit call passage).run.Keeps L)
    (chainWait : ∀ chain phase plan, (Performing.chainWait call chain phase plan).run.Keeps L)
    (ask : ∀ {w : World} {aspect} phase {access : Access}, w.names.Calls aspect →
      access.ticket = 0 → (Engine.record (.visited [aspect]) >>= fun _ =>
        Engine.ask call aspect phase access).KeepsAt L w)
    (tell : ∀ {w : World} {aspect} phase {access : Access} permitted, w.names.Calls aspect →
      access.ticket = 0 → (Engine.record (.visited [aspect]) >>= fun _ =>
        Engine.tell call aspect phase access permitted).KeepsAt L w) :
    Engine.Admits call L fun w i => i < w.items.next where
  sound := c.sound
  grows := c.grows
  stuck := c.stuck
  idle := idle
  panic := panic
  newAspect := newAspect
  newDomain := newDomain
  clear r _ := Engine.keepsAt_modify (c.quiet (World.quiet_sameTable _ r Domain.sameTable_clear))
  runPending _ _ := Engine.runPending_keeps c.delivering hc _ _
  trigger event _ := Engine.trigger_keeps c.delivering hc _ event _
  subscribe source _ _ := by
    refine Engine.keepsAt_modify_bind (c.quiet (World.quiet_record rfl _)) fun _ => ?_
    exact Engine.keepsAt_of_eq (Engine.subscribe_apply ..)
      (c.quiet (World.quiet_subscribing _ _ source fun _ h => by cases h))
  unsubscribe source _ := by
    refine Engine.keepsAt_modify_bind (c.quiet (World.quiet_record rfl _)) fun _ => ?_
    exact Engine.keepsAt_of_eq (Engine.unsubscribe_apply ..)
      (c.quiet (World.quiet_unsubscribing _ _ source))
  prompt event _ := Engine.prompt_keeps c.delivering.toSignalling hc trivial event _
  onExecute hook _ := Engine.onExecute_keeps c.delivering.toSignalling trivial hook _
  executeStore _ _ := Engine.executeStore_keeps c.delivering.toSignalling hc trivial _
  triggerStore hs := Engine.triggerStore_keepsAt c.delivering hc hs
  setAffinity {w s affinity} hs _ ha := fun hw =>
    Engine.setAffinity_keepsAt c.storekeeping.heeding trivial ((c.sound hw).named hs) ha hw
  newStore := Performing.newStore_keeps c.storekeeping c.rename
  dropStore := Performing.dropStore_keeps c.storekeeping c.rename
  sharing hs _ hm hw :=
    Performing.shared_keepsAt c.storekeeping.toTending trivial ((c.sound hw).named hs) hm hw
  usable {w s i} hw _ _ hi := ((World.quiet_share s w).sound (c.sound hw) |>.arenas hi).1
  still_usable hi _ hw := Nat.lt_of_lt_of_le hi (c.grows hw.2).items
  write := write
  read := read
  create := Performing.create_kept c.storekeeping
    { sound := c.sound, grows := c.grows, stuck := c.stuck, idle, panic, newAspect } write builds
  destroy := Performing.destroy_keeps c.storekeeping
  enter := enter
  exit := exit
  chainWait := chainWait
  ask := ask
  tell := tell

/-- So it does if, besides, the aspects that it knows may be asked and told. -/
theorem Law.Calm.guided {call : Nat → Engine Unit} {L : Law} {V : World → Item → Prop}
    {A : World → Nat → Prop} (c : L.Calm V) (hc : ∀ r, (call r).Keeps L)
    (g : Engine.Guides call L A)
    (idle : ∀ {w w' : World}, w.Idle w' → L.inv w → L.Holds w .done w')
    (panic : ∀ text, (Engine.panic text).Keeps L)
    (newAspect : ∀ {a}, a.Fresh → (Engine.newAspect a).Keeps L)
    (newDomain : ∀ {label mode}, mode.Fresh → (Engine.newDomain { label, mode }).Keeps L)
    (write : ∀ {w : World} {i} v, i < w.items.next → v.type = (w.item i).descriptor.type →
      (Engine.write call i v).KeepsAt L w)
    (read : ∀ {w : World} {i}, i < w.items.next → (Engine.read call i).KeepsAt L w)
    (builds : ∀ {w v : World} {s plan f} value g, L.inv w →
      (Performing.factory s plan).run w = (.done (.ok f), v) →
      (v.modifyStore s g).Builds V value.type (pure value) f) :
    Engine.Admits call L fun w i => i < w.items.next :=
  c.admitting hc idle panic newAspect newDomain write read builds (Performing.enter_guided g)
    (Performing.exit_guided g)
    (Performing.chainWait_guided g fun muted w => Engine.keepsAt_modify
      (c.quiet (w.quiet_bookkeeping w.held w.modelDepth w.triggerDepth muted)))
    (fun phase access hx _ => Engine.visit_ask_guided g phase access hx)
    (fun phase access permitted hx _ => Engine.visit_tell_guided g phase access permitted hx)

theorem Law.Calm.admits {call : Nat → Engine Unit} {L : Law} (c : L.Calm)
    (hc : ∀ r, (call r).Keeps L)
    (idle : ∀ {w w' : World}, w.Idle w' → L.inv w → L.Holds w .done w')
    (panic : ∀ text, (Engine.panic text).Keeps L)
    (newAspect : ∀ {a}, a.Fresh → (Engine.newAspect a).Keeps L)
    (newDomain : ∀ {label mode}, mode.Fresh → (Engine.newDomain { label, mode }).Keeps L)
    (write : ∀ {w : World} {i} v, i < w.items.next → (Engine.write call i v).KeepsAt L w)
    (read : ∀ {w : World} {i}, i < w.items.next → (Engine.read call i).KeepsAt L w)
    (enter : ∀ chain phase passage plan,
      (Performing.enter call chain phase passage plan).run.Keeps L)
    (exit : ∀ passage, (Performing.exit call passage).run.Keeps L)
    (chainWait : ∀ chain phase plan, (Performing.chainWait call chain phase plan).run.Keeps L)
    (ask : ∀ {w : World} {aspect} phase {access : Access}, w.names.Calls aspect →
      access.ticket = 0 → (Engine.record (.visited [aspect]) >>= fun _ =>
        Engine.ask call aspect phase access).KeepsAt L w)
    (tell : ∀ {w : World} {aspect} phase {access : Access} permitted, w.names.Calls aspect →
      access.ticket = 0 → (Engine.record (.visited [aspect]) >>= fun _ =>
        Engine.tell call aspect phase access permitted).KeepsAt L w) :
    Engine.Admits call L fun w i => i < w.items.next :=
  c.admitting hc idle panic newAspect newDomain (fun v hi _ => write v hi) read
    (fun _ _ _ _ => World.builds_any _ _ _ _) enter exit chainWait ask tell

end GuardedStore
