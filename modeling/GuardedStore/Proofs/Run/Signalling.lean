import GuardedStore.Proofs.Run.Admits

/-!
What it takes to notify and to run stores.

Notifying subscribers and giving them the occasion to act comes down to changes of signals, to notes
in the history and to calls of scripts. A law that allows such changes is kept by all of it if the
scripts keep it.
-/
namespace GuardedStore

def Notice.ofSignals : Notice → Bool
  | storeExecuted .. | triggerQueued .. | triggerDropped .. | runComplete .. => true
  | _ => false

/-- Whether a happening is a note about what becomes of accepted events, those of certain stores if
of any. -/
def Happening.ofSignals (T : Nat → Prop) : Happening → Prop
  | .signalled s _ | .prompted s _ | .registered s _ | .executing s _ _ | .ran s _ _ => T s
  | .notice n => n.ofSignals
  | h => h.inTrace

namespace World

/-- Nothing about the store has changed but its signal and what it counts for itself. -/
structure SameHouse (s s' : Store) : Prop where
  id : s'.id = s.id
  arena : s'.arena = s.arena
  affinity : s'.affinity = s.affinity
  dropped : s'.dropped = s.dropped
  sharers : s'.sharers = s.sharers
  owned : s'.owned = s.owned
  names : s'.names = s.names
  replaced : s'.replaced = s.replaced

/-- A quiet change that concerns neither items nor bindings nor subscriptions nor the books of
domains nor who is held, and the signals of certain stores only. -/
structure Signalling (T : Nat → Prop) (w w' : World) : Prop extends w.Quiet w' where
  allItems : w'.items = w.items
  house : ∀ s, SameHouse (w.store s) (w'.store s)
  elsewhere : ∀ s, ¬ T s → w'.store s = w.store s
  table : ∀ d source, (w'.domain d).subscribers source = (w.domain d).subscribers source
  counts : ∀ d source, (w'.domain d).recorded source = (w.domain d).recorded source
  books : ∀ d, (w'.domain d).books = (w.domain d).books
  held : w'.held = w.held
  notes : ∃ notes, (∀ h ∈ notes, h.ofSignals T) ∧ w'.history = notes ++ w.history

variable {T : Nat → Prop}

theorem aside_of_ofSignals {h : Happening} (hh : h.ofSignals T) : h.aside := by
  cases h <;> first | rfl | cases hh

theorem SameHouse.refl (s : Store) : SameHouse s s := by
  constructor <;> rfl

theorem Signalling.refl (w : World) : w.Signalling T w :=
  { Quiet.refl w with
    allItems := rfl
    house := fun _ => .refl _
    elsewhere := fun _ _ => rfl
    table := fun _ _ => rfl
    counts := fun _ _ => rfl
    books := fun _ => rfl
    held := rfl
    notes := ⟨[], by simp, rfl⟩ }

theorem Signalling.queue {w w' : World} (h : w.Signalling T w') :
    ∀ d, (w'.domain d).queue = (w.domain d).queue :=
  queue_of_books h.books

theorem signalling_record {h : Happening} (hh : h.ofSignals T) (w : World) :
    w.Signalling T { w with history := h :: w.history } :=
  { quiet_record (aside_of_ofSignals hh) w, Signalling.refl w with
    notes := ⟨[h], by simpa using hh, rfl⟩ }

theorem signalling_bookkeeping (w : World) (model trigger : Nat) (muted : Bool) :
    w.Signalling T { w with modelDepth := model, triggerDepth := trigger, muted } :=
  { Signalling.refl w with }

theorem signalling_modifyStore (w : World) {r : Nat} (hr : T r) {f : Store → Store}
    (hf : ∀ s, SameHouse s (f s)) : w.Signalling T (w.modifyStore r f) :=
  { w.quiet_modifyStore_of_same r fun s => ⟨(hf s).id, (hf s).arena, (hf s).affinity⟩,
      Signalling.refl w with
    house := fun s => by
      rw [store_modifyStore]
      split
      · next h => rw [h]; exact hf _
      · exact .refl _
    elsewhere := fun s hs => by
      rw [store_modifyStore, if_neg]
      rintro rfl
      exact hs hr }

theorem signalling_sameTable (w : World) (r : Nat) {f : Domain → Domain}
    (h : ∀ d : Domain, d.SameTable (f d)) (hb : ∀ d : Domain, (f d).books = d.books) :
    w.Signalling T (w.modifyDomain r f) :=
  { w.quiet_sameTable r h, Signalling.refl w with
    table := fun d source => by
      rw [domain_modifyDomain]
      split
      · next hd => rw [(h _).subscribers, hd]
      · rfl
    counts := fun d source => by
      rw [domain_modifyDomain]
      split
      · next hd => rw [(h _).recorded, hd]
      · rfl
    books := books_modifyDomain hb }

end World

/-- The law allows what is done about the signals of certain stores, and waiting. -/
structure Law.Signalling (L : Law) (T : Nat → Prop) : Prop where
  signalling {w w' : World} : w.Signalling T w' → L.inv w → L.Holds w .done w'
  stuck {w} : L.inv w → L.rel w .stuck w

namespace Engine

variable {call : Nat → Engine Unit} {L : Law} {T : Nat → Prop} (c : L.Signalling T)
  (hc : ∀ r, (call r).Keeps L)

section Signals

include c

theorem signalling_keepsAt {f : World → World} {w : World} (h : w.Signalling T (f w)) :
    (modify f).KeepsAt L w :=
  keepsAt_modify (c.signalling h)

theorem note_keeps {h : Happening} (hh : h.ofSignals T) : (record h).Keeps L :=
  fun w => signalling_keepsAt c (World.signalling_record hh w)

theorem remark_keeps {n : Notice} (hn : n.ofSignals) : (notice n).Keeps L :=
  note_keeps c (h := .notice n) hn

theorem report_keeps {h : Happening} (hh : h.inTrace) : (report h).Keeps L := by
  intro w
  by_cases hm : w.muted
  · exact (keeps_pure () w).congr (if_pos hm)
  · refine (note_keeps c ?_ w).congr (if_neg hm)
    cases h <;> first | rfl | cases hh

theorem modifySignal_keeps {s : Nat} (hs : T s) (f : Signal → Signal) :
    (modify (World.modifySignal s f)).Keeps L :=
  fun w => signalling_keepsAt c
    (w.signalling_modifyStore hs fun _ => ⟨rfl, rfl, rfl, rfl, rfl, rfl, rfl, rfl⟩)

theorem sameTable_keeps (d : Nat) {f : Domain → Domain} (hf : ∀ d : Domain, d.SameTable (f d))
    (hb : ∀ d : Domain, (f d).books = d.books) : (modifyDomain d f).Keeps L :=
  fun w => signalling_keepsAt c (w.signalling_sameTable d hf hb)

theorem bookkeeping_keeps {f : World → World} (hf : ∀ w : World, ∃ model trigger muted,
    f w = { w with modelDepth := model, triggerDepth := trigger, muted }) :
    (modify f).Keeps L := by
  intro w
  obtain ⟨model, trigger, muted, h⟩ := hf w
  exact signalling_keepsAt c (h ▸ w.signalling_bookkeeping model trigger muted)

theorem onExecute_keeps {store : Nat} (ht : T store) (hook : ModelHook) :
    (onExecute store hook).Keeps L := by
  refine keeps_get_bind fun w => ?_
  split
  · exact keepsAt_wait_bind c.stuck
  · exact (modifySignal_keeps c ht _).bind
      (fun _ => note_keeps c (h := .registered store hook) ht) w

end Signals

section Calls

include c hc

omit c in
theorem callAny_keeps (routine : Option Nat) : (callAny call routine).Keeps L := by
  cases routine with
  | none => exact keeps_pure ()
  | some r =>
    refine keeps_get_bind fun w => ?_
    split
    · exact keeps_pure () w
    · exact hc r w

theorem notify_keeps {subscriber : Subscriber} (ht : ∀ s, subscriber = .store s → T s)
    (event : Event) : (notify call subscriber event).Keeps L := by
  cases subscriber with
  | store s =>
    have ht := ht s rfl
    exact (note_keeps c (h := .signalled s event) ht).bind fun _ => modifySignal_keeps c ht _
  | dependent d =>
    exact keeps_get_bind fun w => ((report_keeps c rfl).bind fun _ => callAny_keeps hc _) w

theorem prompt_keeps {store : Nat} (ht : T store) (event : Event) :
    (prompt call store event).Keeps L :=
  (note_keeps c (h := .prompted store event) ht).bind fun _ =>
    notify_keeps c hc (by rintro s ⟨⟩; exact ht) event

theorem runHook_keeps {store : Nat} (ht : T store) (triggers : Nat) (hook : ModelHook) :
    (runHook call store triggers hook).Keeps L := by
  have hd (n : Nat) : (modify fun w => { w with modelDepth := n }).Keeps L :=
    bookkeeping_keeps c fun _ => ⟨_, _, _, rfl⟩
  refine (note_keeps c (h := .ran store hook triggers) ht).bind fun _ =>
    (report_keeps c rfl).bind fun _ => keeps_get_bind fun w => Keeps.bind (hd _) (fun _ => ?_) w
  exact (callAny_keeps hc _).ensure (hd _)

theorem executeStore_keeps {store : Nat} (ht : T store) : (executeStore call store).Keeps L := by
  refine keeps_get_bind fun w => ?_
  dsimp only
  split
  · exact keeps_pure _ w
  · have hn := note_keeps c (h := .executing store (w.store store).signal.pending
      (w.store store).signal.hooks) ht
    refine Keeps.bind (modifySignal_keeps c ht _) (fun _ => hn.bind fun _ => ?_) w
    split
    · exact fun w => keepsAt_wait_bind c.stuck
    · refine (modifySignal_keeps c ht _).bind fun _ => ?_
      have hr := keeps_forM fun hook (_ : hook ∈ (w.store store).signal.hooks) =>
        runHook_keeps c hc ht (w.store store).signal.pending hook
      refine (hr.ensure (modifySignal_keeps c ht _)).bind fun _ => ?_
      exact (modifySignal_keeps c ht _).bind fun _ => (remark_keeps c rfl).bind fun _ =>
        keeps_pure _

theorem execute_keeps {subscriber : Subscriber} (ht : ∀ s, subscriber = .store s → T s) :
    (execute call subscriber).Keeps L := by
  cases subscriber with
  | store s => exact (executeStore_keeps c hc (ht s rfl)).bind fun _ => keeps_pure ()
  | dependent d =>
    exact keeps_get_bind fun w => ((report_keeps c rfl).bind fun _ => callAny_keeps hc _) w

end Calls

end Engine

namespace World

/-- An event was handed to those who can be woken. -/
def handing (domain : Nat) (event : Event) (w : World) : World :=
  { w with
    history := .handed domain event (w.liveSubscribers domain event.source) :: w.history }

/-- An event was requested, and not yet passed on. -/
def requesting (issuer : Issuer) (domain : Option Nat) (event : Event) (w : World) : World :=
  { w with history := .requested issuer domain event :: w.history }

/-- An event was requested of a cooperative domain, and queued there. -/
def queueing (issuer : Issuer) (d : Nat) (e : Event) (w : World) : World :=
  { w.modifyDomain d fun d => d.accept e with
    history := .notice (.triggerQueued (w.domain d).label e) ::
      .requested issuer (some d) e :: w.history }

theorem domain_queueing (w : World) (issuer : Issuer) (d : Nat) (e : Event) (r : Nat) :
    (w.queueing issuer d e).domain r = if r = d then (w.domain d).accept e else w.domain r :=
  w.domain_modifyDomain d r _

/-- A domain has been emptied, and its events taken. -/
def taking (d : Nat) (w : World) : World :=
  { w.modifyDomain d Domain.emptyQueue with
    history := .taken d (w.domain d).queue :: w.history }

theorem domain_taking (w : World) (d r : Nat) :
    (w.taking d).domain r = if r = d then (w.domain d).emptyQueue else w.domain r :=
  w.domain_modifyDomain d r Domain.emptyQueue

theorem quiet_taking (w : World) (d : Nat) : w.Quiet (w.taking d) :=
  { w.quiet_sameTable d Domain.sameTable_emptyQueue with
    history := ⟨[.taken d (w.domain d).queue], by simp [Happening.aside], rfl⟩ }

/-- Subscribers are held, besides those who are. -/
def takeHold (subscribers : List Subscriber) (w : World) : World :=
  { w with held := w.held ++ subscribers }

/-- A delivery is over, and only those are held who were held when it began. -/
def letGo (domain : Nat) (held : List Subscriber) (w : World) : World :=
  { w with held, history := .released domain held :: w.history }

theorem quiet_takeHold (subscribers : List Subscriber) (w : World) :
    w.Quiet (w.takeHold subscribers) :=
  w.quiet_bookkeeping _ w.modelDepth w.triggerDepth w.muted

theorem quiet_letGo (domain : Nat) (held : List Subscriber) (w : World) :
    w.Quiet (w.letGo domain held) :=
  (w.quiet_bookkeeping held w.modelDepth w.triggerDepth w.muted).trans (quiet_record rfl _)

end World

/-- The law allows that events are handed out by domains with `D`, and that subscribers are held
meanwhile. -/
structure Law.Handing (L : Law) (D : Nat → Prop) : Prop extends L.Signalling fun _ => True where
  handing {w : World} {domain} event : D domain → L.inv w →
    L.Holds w .done (w.handing domain event)
  takeHold {w : World} subscribers : L.inv w → L.Holds w .done (w.takeHold subscribers)
  letGo {w : World} {domain} held : D domain → L.inv w → L.Holds w .done (w.letGo domain held)

/-- The law allows that events are accepted, taken and handed out, and requested by other than
items. -/
structure Law.Delivering (L : Law) : Prop extends L.Handing fun _ => True where
  table {w : World} {r f} : (∀ d : Domain, d.SameTable (f d)) → L.inv w →
    L.Holds w .done (w.modifyDomain r f)
  taken {w : World} domain events : L.inv w →
    L.Holds w .done { w with history := .taken domain events :: w.history }
  outside {w : World} domain event :
    L.inv w → L.Holds w .done (w.requesting .outsider domain event)
  byStore {w : World} {s} n : s < w.stores.next → L.inv w →
    L.Holds w .done (w.requesting (.store s) (w.store s).affinity ⟨(w.store s).source, n⟩)

namespace Engine

/-- A request, by what the domain does about it. -/
theorem trigger_apply (call : Nat → Engine Unit) (issuer : Issuer) (r : Nat) (e : Event)
    (w : World) :
    trigger call issuer (some r) e w =
      match (w.domain r).mode with
      | .recording _ => (modifyDomain r (fun d => d.accept e) >>= fun _ => pure true)
          (w.requesting issuer (some r) e)
      | .cooperative _ => (.done true, w.queueing issuer r e)
      | .immediate i => (deliver call r (w.domain r).label i e >>= fun _ => pure true)
          (w.requesting issuer (some r) e) := by
  have h : trigger call issuer (some r) e w =
      forward call (some r) e (w.requesting issuer (some r) e) := rfl
  have hd : (w.requesting issuer (some r) e).domain r = w.domain r := rfl
  rw [h, forward, bind_of_done (m := get) rfl, hd]
  cases (w.domain r).mode <;> rfl

/-- What a run does with the events that it has taken from a domain. -/
def runTaken (call : Nat → Engine Unit) (domain : Nat) (label : String) (events : List Event) :
    Engine RunStats := do
  if events.isEmpty then return {}
  let stats ← releasing domain do
    let p ← deliverAll call domain {} events
    p.woken.forM (execute call)
    return { events := events.length, notified := p.notified, executed := p.woken.length }
  modifyDomain domain fun d => d.countRun stats
  notice (.runComplete label stats)
  return stats

theorem runPending_apply (call : Nat → Engine Unit) (domain : Nat) (w : World) :
    runPending call domain w =
      runTaken call domain (w.domain domain).label (w.domain domain).queue (w.taking domain) :=
  rfl

theorem releasing_keepsAt {L : Law} {α : Type} {m : Engine α} {w : World} {domain : Nat}
    (hm : m.KeepsAt L w)
    (hl : ∀ {v : World} {held}, L.inv v → L.Holds v .done (v.letGo domain held)) :
    (releasing domain m).KeepsAt L w :=
  keepsAt_get_bind (hm.ensure fun _ _ _ _ _ => keepsAt_of_eq rfl hl)

section Handing

variable {call : Nat → Engine Unit} {L : Law} {D : Nat → Prop} (c : L.Handing D)
  (hc : ∀ r, (call r).Keeps L)

include c

theorem hold_keeps (subscribers : List Subscriber) : (hold subscribers).Keeps L :=
  fun _ => keepsAt_modify (c.takeHold subscribers)

include hc

theorem deliverAtOnce_keeps (event : Event) (subscribers : List Subscriber) :
    (deliverAtOnce call event subscribers).Keeps L :=
  keeps_forM fun _ _ => (notify_keeps c.toSignalling hc (fun _ _ => trivial) event).bind fun _ =>
    execute_keeps c.toSignalling hc fun _ _ => trivial

theorem notifyAll_keeps (event : Event) (subscribers : List Subscriber) :
    ∀ p, (notifyAll call event p subscribers).Keeps L := by
  induction subscribers with
  | nil => exact fun p => keeps_pure p
  | cons s subscribers ih =>
    exact fun p => (notify_keeps c.toSignalling hc (fun _ _ => trivial) event).bind fun _ => ih _

theorem deliver_keeps {domain : Nat} (hd : D domain) (label : String) (i : Immediate)
    (event : Event) : (deliver call domain label i event).Keeps L := by
  have hs (b : Bool) := sameTable_keeps c.toSignalling domain (fun d => d.sameTable_setDelivering b)
    fun d => d.books_setDelivering b
  refine keeps_get_bind fun w => ?_
  split
  · exact report_keeps c.toSignalling rfl w
  · refine Keeps.bind (report_keeps c.toSignalling rfl) (fun _ => (hs true).bind fun _ => ?_) w
    refine Keeps.ensure (fun w => releasing_keepsAt ?_ (c.letGo _ hd)) (hs false)
    refine (callAny_keeps hc _ w).bind fun _ v _ _ => keepsAt_get_bind ?_
    refine keepsAt_modify_bind (c.handing event hd) fun _ => ?_
    exact ((hold_keeps c _).bind fun _ => deliverAtOnce_keeps c hc event _) _

theorem deliverAll_keeps {domain : Nat} (hd : D domain) (events : List Event) :
    ∀ p, (deliverAll call domain p events).Keeps L := by
  induction events with
  | nil => exact fun p => keeps_pure p
  | cons e events ih =>
    intro p
    refine keeps_get_bind fun w => keepsAt_modify_bind (c.handing e hd) fun _ => ?_
    exact ((hold_keeps c _).bind fun _ =>
      (notifyAll_keeps c hc e _ p).bind fun p => ih p) _

/-- A run keeps the law if counting it does. -/
theorem runTaken_keeps {domain : Nat} (hd : D domain)
    (hr : ∀ stats, (modifyDomain domain fun d => d.countRun stats).Keeps L) (label : String)
    (events : List Event) : (runTaken call domain label events).Keeps L := by
  intro w
  unfold runTaken
  split
  · exact keeps_pure _ w
  · refine KeepsAt.bind (releasing_keepsAt ?_ (c.letGo _ hd)) fun stats v _ _ => ?_
    · refine (deliverAll_keeps c hc hd _ _ _).bind fun p v _ _ => ?_
      refine Keeps.bind (keeps_forM fun s _ => ?_) (fun _ => keeps_pure _) v
      exact execute_keeps c.toSignalling hc fun _ _ => trivial
    · refine (hr stats).bind (fun _ => ?_) v
      exact (remark_keeps c.toSignalling rfl).bind fun _ => keeps_pure _

end Handing

variable {call : Nat → Engine Unit} {L : Law} (c : L.Delivering) (hc : ∀ r, (call r).Keeps L)

include c hc

theorem forward_keeps (domain : Option Nat) (event : Event) :
    (forward call domain event).Keeps L := by
  cases domain with
  | none => exact (remark_keeps c.toSignalling rfl).bind fun _ => keeps_pure _
  | some r =>
    have hs : (modifyDomain r fun d => d.accept event).Keeps L := fun _ =>
      keepsAt_modify (c.table fun d => d.sameTable_accept event)
    refine keeps_get_bind fun w => ?_
    dsimp only
    split
    · exact (hs w).bind fun _ v _ _ => keeps_pure _ v
    · exact (remark_keeps c.toSignalling rfl w).bind fun _ v _ _ =>
        (hs v).bind fun _ v _ _ => keeps_pure _ v
    · exact (deliver_keeps c.toHanding hc trivial _ _ event w).bind fun _ v _ _ => keeps_pure _ v

theorem trigger_keeps (domain : Option Nat) (event : Event) :
    (trigger call .outsider domain event).Keeps L := fun _ =>
  keepsAt_modify_bind (c.outside domain event) fun _ => forward_keeps c hc domain event _

theorem triggerStore_keepsAt {w : World} {s : Nat} (hs : s < w.stores.next) :
    (triggerStore call s).KeepsAt L w := by
  have hf (f : Store → Store) (h : ∀ x, World.SameHouse x (f x)) :
      (modify (World.modifyStore s f)).Keeps L := fun w =>
    signalling_keepsAt c.toSignalling (w.signalling_modifyStore trivial h)
  refine KeepsAt.bind ?_ fun _ v hv _ => keepsAt_get_bind (KeepsAt.ensure ?_ fun _ u _ _ _ => ?_)
  · refine hf _ (fun _ => ?_) w
    exact ⟨rfl, rfl, rfl, rfl, rfl, rfl, rfl, rfl⟩
  · have hs : s < v.stores.next := by
      cases hv
      exact hs
    exact keepsAt_modify_bind (c.byStore _ hs) fun _ => forward_keeps c hc _ _ _
  · refine hf _ (fun _ => ?_) u
    exact ⟨rfl, rfl, rfl, rfl, rfl, rfl, rfl, rfl⟩

theorem runPending_keeps (domain : Nat) : (runPending call domain).Keeps L := by
  refine keeps_get_bind fun w => keepsAt_modify_bind (c.table Domain.sameTable_emptyQueue)
    fun _ => keepsAt_modify_bind (c.taken domain _) fun _ => ?_
  have hs (stats : RunStats) : (modifyDomain domain fun d => d.countRun stats).Keeps L := fun _ =>
    keepsAt_modify (c.table fun d => d.sameTable_countRun stats)
  exact runTaken_keeps c.toHanding hc trivial hs _ _ _

end Engine

end GuardedStore
