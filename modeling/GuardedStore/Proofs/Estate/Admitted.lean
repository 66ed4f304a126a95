import GuardedStore.Proofs.Estate.Steps
import GuardedStore.Proofs.Run.Steps

/-!
The law of estates admits all operations that steps are made of.

What is left after the operations on items and stores are domains, which nobody is subscribed in
when they are made, what others subscribe to in a store's name, after which nothing is said about
the source, and the names of stores: a name is given to a new store only, and whoever loses a name
is dropped as soon as nobody uses it.
-/
namespace GuardedStore

namespace World

variable {w : World}

theorem untouched_withDomain {label : String} {mode : DomainMode} (hm : mode.Fresh)
    (hw : w.Sound) : w.Untouched (w.withDomain { label, mode }) := by
  have hold {d : Nat} (hd : d ≠ w.domains.next) :
      (w.withDomain { label, mode }).domain d = w.domain d := by rw [domain_withDomain, if_neg hd]
  have hnew : (w.withDomain { label, mode }).domain w.domains.next = { label, mode } := by
    rw [domain_withDomain, if_pos rfl]
  refine ⟨rfl, rfl, fun s => ?_, fun {d source x} hx => .inl ?_,
    fun _ hp => hp.truthful.mono (grows_withDomain _) ⟨[], by simp, rfl⟩⟩
  · refine .of_same (fun _ => .rfl) (fun _ => ⟨rfl, rfl, rfl⟩) (.refl _) rfl (.refl _ _) rfl
      fun {d source} _ hm' => ?_
    by_cases hd : d = w.domains.next
    · refine .inr ⟨?_, fun ha => Nat.lt_irrefl _ (hd ▸ hw.storeAffinities ha)⟩
      rw [hd, hnew, Domain.tally, subscribers_fresh hm]
      cases hm <;> rfl
    · refine .inl ⟨fun h => hm' ?_, by rw [hold hd]⟩
      obtain ⟨a, ha⟩ := h
      exact ⟨a, by rwa [hold hd]⟩
  · by_cases hd : d = w.domains.next
    · rw [hd, hnew, subscribers_fresh hm] at hx
      cases hx
    · rwa [hold hd] at hx

/-- Others may change who is subscribed to what if the store's own subscriptions can still be
told. -/
theorem untouched_domains {y : Happening} (hy : y.immaterial) {v : World} (hg : w.Quiet v)
    (hv : v = { w with domains := v.domains, history := y :: w.history })
    (ht : ∀ {d source}, ¬ v.Meddled d source → ∀ s,
      (v.domain d).tally s source = (w.domain d).tally s source)
    (hj : ∀ {d source x}, x ∈ (v.domain d).subscribers source →
      x ∈ (w.domain d).subscribers source ∨
        (∃ r, x = .dependent r) ∧ ∃ a, .subscribed a source ∈ v.history) :
    w.Untouched v := by
  have hh : v.history = y :: w.history := by rw [hv]
  have hitem (i : Nat) : v.item i = w.item i := by rw [hv]; rfl
  have hstore (s : Nat) : v.store s = w.store s := by rw [hv]; rfl
  have hn : v.names.stores = w.names.stores := by rw [hv]
  refine ⟨by rw [hv], hn, fun s => ?_, hj, fun _ hp => hp.truthful.mono hg.grows
    ⟨[y], by simpa using Happening.silent_of_immaterial hy, hh⟩⟩
  refine .of_same (fun i => ?_) (fun {i} _ => ?_) ?_
    (hh ▸ registry_cons (Happening.registers_of_immaterial hy _) _)
    (hh ▸ agree_cons (Happening.settles_of_immaterial hy _) _) hn
    fun {d source} _ hm => .inl ⟨fun h => hm (h.mono hg.grows.history (hg.kind d)), ht hm s⟩
  · rw [Owns, Owns, hitem, hv]
  · rw [hitem]
    exact ⟨rfl, rfl, rfl⟩
  · rw [hstore]
    exact .refl _

/-- What somebody else adds to the subscribers of a source does not count, except where nobody can
tell who it was. -/
theorem untouched_subscribed (domain : Option Nat) (source : Source) (r : Nat) :
    w.Untouched ({ w with history := .subscribed domain source :: w.history }.subscribing domain
      source (.dependent r)) := by
  have hv : ({ w with history := .subscribed domain source :: w.history } : World).subscribing
      domain source (.dependent r) =
        { w with
          domains := (w.subscribing domain source (.dependent r)).domains
          history := .subscribed domain source :: w.history } := by
    cases domain <;> rfl
  have hq := (w.quiet_record (h := .subscribed domain source) rfl).trans
    (World.quiet_subscribing _ domain source (x := .dependent r) fun _ h => by cases h)
  have hk (d : Nat) : ((w.subscribing domain source (.dependent r)).domain d).kind =
      (w.domain d).kind :=
    (w.quiet_subscribing domain source fun _ h => by cases h).kind d
  rw [hv] at hq ⊢
  refine untouched_domains (y := .subscribed domain source) rfl hq rfl
    (fun {d src} hm s => ?_) fun {d src x} hx => ?_
  · change ((w.subscribing domain source (.dependent r)).domain d).tally s src = _
    have hne : ¬ (domain = some d ∧ (w.domain d).kind = .recording ∧ src = source) := by
      rintro ⟨-, hd, rfl⟩
      exact hm ⟨domain, .inr ⟨(hk d).trans hd, List.mem_cons_self⟩⟩
    rw [Domain.tally, Domain.tally, subscribers_subscribing, recorded_subscribing, if_neg hne]
    split
    · rw [List.count_append, List.count_singleton, if_neg (by simp)]
      rfl
    · rfl
  · replace hx : x ∈ ((w.subscribing domain source (.dependent r)).domain d).subscribers src := hx
    rw [subscribers_subscribing] at hx
    split at hx
    · next h =>
      rcases List.mem_append.mp hx with hx | hx
      · exact .inl hx
      · exact .inr ⟨⟨r, List.mem_singleton.mp hx⟩, domain, h.2.2 ▸ List.mem_cons_self⟩
    · exact .inl hx

/-- What somebody else takes from the subscribers of a source is not the store's doing. -/
theorem untouched_unsubscribed (domain : Option Nat) (source : Source) :
    w.Untouched ({ w with history := .unsubscribed domain source :: w.history }.unsubscribing domain
      source) := by
  have hv : ({ w with history := .unsubscribed domain source :: w.history } : World).unsubscribing
      domain source =
        { w with
          domains := (w.unsubscribing domain source).domains
          history := .unsubscribed domain source :: w.history } := by
    cases domain <;> rfl
  have hq := (w.quiet_record (h := .unsubscribed domain source) rfl).trans
    (World.quiet_unsubscribing _ domain source)
  rw [hv] at hq ⊢
  refine untouched_domains (y := .unsubscribed domain source) rfl hq rfl
    (fun {d src} hm s => ?_) fun {d src x} hx => .inl ?_
  · change ((w.unsubscribing domain source).domain d).tally s src = _
    have hne : ¬ (domain = some d ∧ src = source) := by
      rintro ⟨-, rfl⟩
      exact hm ⟨domain, .inl List.mem_cons_self⟩
    rw [tally_unsubscribing, if_neg hne]
  · replace hx : x ∈ ((w.unsubscribing domain source).domain d).subscribers src := hx
    rw [subscribers_unsubscribing] at hx
    split at hx
    · cases hx
    · exact hx

end World

open World in
/-- A law that what leaves every store untouched is no concern of admits all operations of the
engine if it is kept by panics, by what is done about stores and their items, and by writes. -/
theorem Law.Lenient.admits {L : Law} (l : L.Lenient) {call : Nat → Engine Unit}
    (hc : ∀ r, (call r).Keeps L) {Usable : World → Nat → Prop}
    (panic : ∀ text, (Engine.panic text).Keeps L)
    (setAffinity : ∀ {w : World} {s affinity}, w.Named s → (w.store s).owned = false →
      w.Offers affinity → (Engine.setAffinity s affinity).KeepsAt L w)
    (newStore : ∀ name plan, (Performing.newStore name plan).run.Keeps L)
    (dropStore : ∀ name, (Performing.dropStore name).run.Keeps L)
    (sharing : ∀ {α : Type} {m : Engine α} {w : World} {s}, w.Named s →
      (w.store s).owned = false → m.KeepsAt L (w.share s) →
        (Engine.modify (World.share s) >>= fun _ =>
          Engine.ensure m (Engine.endSharing s)).KeepsAt L w)
    (usable : ∀ {w : World} {s i}, L.inv w → w.Named s → (w.store s).owned = false →
      i ∈ ((w.share s).store s).arena.toList → Usable (w.share s) i)
    (still_usable : ∀ {w w' : World} {i}, Usable w i → L.inv w → L.Holds w .done w' → Usable w' i)
    (write : ∀ {w : World} {i} v, Usable w i → (Engine.write call i v).KeepsAt L w)
    (create : ∀ storeName key name type argument convert plan,
      (Performing.create call storeName key name type argument convert plan).run.Keeps L)
    (destroy : ∀ key store, (Performing.destroy key store).run.Keeps L) :
    Engine.Admits call L Usable where
  toBasics := l.basics panic
  newDomain hm w hw := l.untouched (untouched_withDomain hm (l.sound hw)) rfl
    (sound_withDomain hm (l.sound hw)) (grows_withDomain _) hw
  clear r w hw := l.delivering.table Domain.sameTable_clear hw
  runPending _ _ := Engine.runPending_keeps l.delivering hc _ _
  trigger event _ := Engine.trigger_keeps l.delivering hc _ event _
  subscribe {w domain} source d _ := by
    have hq := (w.quiet_record (h := .subscribed domain source) rfl).trans
      (World.quiet_subscribing _ domain source (x := .dependent d) fun _ h => by cases h)
    exact Engine.keepsAt_of_eq ((Engine.bind_of_done (m := Engine.record _) rfl).trans
      (Engine.subscribe_apply ..))
      (l.quiet (untouched_subscribed domain source d) (by cases domain <;> rfl) hq)
  unsubscribe {w domain} source _ := by
    have hq := (w.quiet_record (h := .unsubscribed domain source) rfl).trans
      (World.quiet_unsubscribing _ domain source)
    exact Engine.keepsAt_of_eq ((Engine.bind_of_done (m := Engine.record _) rfl).trans
      (Engine.unsubscribe_apply ..))
      (l.quiet (untouched_unsubscribed domain source) (by cases domain <;> rfl) hq)
  prompt event _ := Engine.prompt_keeps l.delivering.toSignalling hc trivial event _
  onExecute hook _ := Engine.onExecute_keeps l.delivering.toSignalling trivial hook _
  executeStore _ _ := Engine.executeStore_keeps l.delivering.toSignalling hc trivial _
  triggerStore hs := Engine.triggerStore_keepsAt l.delivering hc hs
  setAffinity := setAffinity
  newStore := newStore
  dropStore := dropStore
  sharing := sharing
  usable := usable
  still_usable := still_usable
  write v hi _ := write v hi
  read _ := Engine.readWithin_keeps l.plain hc
    (fun _ _ _ _ => Engine.keepsAt_modify (l.note rfl)) _ _ _
  create := create
  destroy := destroy
  enter := Performing.enter_plain l.plain hc
  exit := Performing.exit_plain l.plain hc
  chainWait := Performing.chainWait_plain l.plain hc
    fun muted => Engine.bookkeeping_keeps l.delivering.toSignalling fun w =>
      ⟨w.modelDepth, w.triggerDepth, muted, rfl⟩
  ask _ _ _ _ := Engine.visit_ask_keeps l.plain hc _ _ _ _
  tell _ _ _ _ _ := Engine.visit_tell_keeps l.plain hc _ _ _ _ _

section Names

open World

variable {T : Nat → Prop} {w : World}

/-- A store goes by a name, and so does its identity. -/
def World.naming (name : String) (s : Nat) (w : World) : World :=
  { w with
    names :=
      { w.names with
        stores := w.names.stores.put name s
        storeIds := w.names.storeIds.put name (w.store s).id } }

/-- No store goes by the name. -/
def World.unnaming (name : String) (w : World) : World :=
  { w with names := { w.names with stores := w.names.stores.erase name } }

theorem World.find?_naming {name n : String} {s t : Nat}
    (h : (w.naming name s).names.stores.find? n = some t) :
    n = name ∧ s = t ∨ n ≠ name ∧ w.names.stores.find? n = some t := by
  simp only [naming, Table.find?_put] at h
  split at h
  · next he => exact .inl ⟨he, Option.some.inj h⟩
  · next hne => exact .inr ⟨hne, h⟩

theorem World.find?_unnaming {name n : String} {t : Nat}
    (h : (w.unnaming name).names.stores.find? n = some t) :
    n ≠ name ∧ w.names.stores.find? n = some t := by
  simp only [unnaming, Table.find?_erase] at h
  split at h
  · cases h
  · next hne => exact ⟨hne, h⟩

theorem World.valid_naming {name : String} {s : Nat} (hs : s < w.stores.next)
    (hn : w.names.Valid w) : (w.naming name s).names.Valid w :=
  { hn with
    stores := fun {n t} h => by
      rcases find?_naming h with ⟨-, rfl⟩ | ⟨-, h⟩
      · exact hs
      · exact hn.stores h }

theorem World.valid_unnaming {name : String} (hn : w.names.Valid w) :
    (w.unnaming name).names.Valid w :=
  { hn with stores := fun h => hn.stores (find?_unnaming h).2 }

/-- Stores may be named otherwise if no name is given to one that was given up. -/
theorem estate_renaming {names : Names} (hv : w.names.Valid w → names.Valid w)
    (hsingle : ∀ {n n' s}, names.stores.find? n = some s →
      names.stores.find? n' = some s → w.Proper → n = n')
    (hn : ∀ {n s}, names.stores.find? n = some s → ¬ Panicked w.history →
      (w.store s).dropped = false ∧ (w.store s).replaced = false)
    (hw : (estate T).inv w) : (estate T).Holds w .done { w with names } := by
  have hm (s : Nat) : w.Unmoved s { w with names } :=
    .of_same (fun _ => .rfl) (fun _ => ⟨rfl, rfl, rfl⟩) (.refl _) rfl
  have hg : w.Grows { w with names } := grows_rename (f := fun _ => names)
  refine estate_holds (sound_rename (f := fun _ => names) hv hw.1) hg (fun hp => ?_) fun _ s _ => ?_
  · have hpw := hw.2 hp
    refine ⟨fun {s} hs => ?_, hpw.unissued, hpw.unused, hpw.unbound, fun h h' => hsingle h h' hpw,
      hpw.unfounded, hpw.joined, hpw.truthful.mono hg ⟨[], by simp, rfl⟩⟩
    have hin := hpw.stores hs
    refine ⟨fun ⟨_, h⟩ => hn h hp, hin.used, fun hd ho => (hm s).tidy hw.1 (hin.tidy hd ho), ?_⟩
    exact hin.bound.of_same rfl rfl (.refl _ _) (fun _ => .rfl) (fun _ => rfl) (hm s).retains
      (fun _ => rfl) fun _ hm => .inl ⟨hm, rfl⟩
  · exact ⟨rfl, rfl, fun _ => hm s, fun _ => rfl⟩

end Names

namespace Engine

open World

variable {s : Nat} {w : World}

/-- A store that lost its name is left alone until its last use. -/
theorem replace_estates (hs : s < w.stores.next)
    (h : ¬ Panicked w.history → ¬ w.Named s ∧ (w.store s).dropped = false) :
    (replace s).KeepsAt estates w := by
  intro hw
  have hf : Usage fun x => { x with replaced := true } :=
    ⟨fun _ => ⟨rfl, rfl, rfl, rfl⟩, fun _ => rfl, fun _ => rfl⟩
  let u := w.modifyStore s fun x => { x with replaced := true }
  have hu : u.store s = { w.store s with replaced := true } := by
    rw [store_modifyStore, if_pos rfl]
  have hheld : (estate (· = s)).Holds w .done u :=
    hf.holds rfl hs (fun hp hn => absurd hn (h hp).1) (fun hp =>
      ⟨(h hp).2, ((hw.2 hp).stores hs).tidy (h hp).2⟩) hw
  have hd : (dropIfIdle s).KeepsAt (estate (· = s)) u :=
    dropIfIdle_estate rfl hs fun hp => by
      rw [hu]
      exact (h hp).2
  refine estates_of_estate (hheld.done_trans hw (hd hheld.1)) fun _ _ => ?_
  obtain ⟨hsh, ho⟩ := usage_dropIfIdle s u
  have he : (replace s w).2 = (dropIfIdle s u).2 := rfl
  have hidle (hin : (w.store s).inUse) : w.Unmoved s (dropIfIdle s u).2 := by
    have hin' : (u.store s).inUse := by rwa [hu]
    rw [dropIfIdle_apply, hin', if_neg (by simp)]
    exact hf.unmoved s w
  have haff (hin : (w.store s).inUse) :
      ((dropIfIdle s u).2.store s).affinity = (w.store s).affinity := by
    have hin' : (u.store s).inUse := by rwa [hu]
    rw [dropIfIdle_apply, hin', if_neg (by simp), hu]
  exact ⟨hsh.trans (by rw [hu]), ho.trans (by rw [hu]), hidle,
    fun ho => haff (by rw [Store.inUse, ho]; rfl)⟩

theorem dropStore_estates (hs : s < w.stores.next)
    (hn : ¬ Panicked w.history → ¬ w.Named s ∧ (w.store s).dropped = false)
    (hu : (w.store s).inUse = false) : (dropStore s).KeepsAt estates w := by
  intro hw
  obtain ⟨hsh, ho⟩ := usage_dropping s w
  refine estates_of_estate (dropStore_estate rfl hs hn hu hw) fun _ _ => ?_
  rw [dropStore_apply]
  refine ⟨hsh, ho, fun h => absurd (hu.symm.trans h) (by decide), fun h => ?_⟩
  rw [Store.inUse, h] at hu
  cases hu

end Engine

namespace Performing

open World

variable {call : Nat → Engine Unit}

/-- A new store is built and given a name, and whoever went by the name before is replaced. -/
theorem newStore_named {L : Law} (hs : ∀ {w}, L.inv w → w.Sound)
    (hb : ∀ {w : World} config {affinity}, w.Offers affinity →
      (Engine.buildStore config affinity).KeepsAt L w)
    (hn : ∀ {w : World} name {s}, s < w.stores.next → ¬ w.Named s → (w.store s).dropped = false →
      (w.store s).replaced = false → L.inv w → L.Holds w .done (w.naming name s))
    (hr : ∀ {w : World} {name s old}, w.names.stores.find? name = some old → s ≠ old → L.inv w →
      (Engine.replace old).KeepsAt L (w.naming name s))
    (name : String) (plan : StorePlan) : (newStore name plan).run.Keeps L := by
  intro w hw
  refine (looks_settings plan).keepsAt_bind (fun x hx => ?_) hw
  refine keepsAt_bind (orFault_keepsAt (hb x.config (hx (hs hw).names))) fun store v hv hv' => ?_
  have hbuilt := eq_of_orFault hv
  rw [Engine.buildStore_apply] at hbuilt
  cases hval : x.config.aspects.validate with
  | error fault =>
    rw [hval] at hbuilt
    cases hbuilt
  | ok u =>
  rw [hval] at hbuilt
  cases hbuilt
  have hst : (w.founding x.config x.affinity).store w.stores.next =
      { id := .drawn w.stores.next, config := x.config, affinity := x.affinity } := by
    rw [store_founding, if_pos rfl]
  have hlt : w.stores.next < (w.founding x.config x.affinity).stores.next :=
    Nat.lt_of_lt_of_eq (Nat.lt_succ_self _) quiet_founding.stores.symm
  have hnames : (w.founding x.config x.affinity).names = w.names := quiet_founding.names
  have hold {n : String} {s : Nat}
      (h : (w.founding x.config x.affinity).names.stores.find? n = some s) : w.stores.next ≠ s :=
    Nat.ne_of_gt ((hs hw).names.stores (hnames ▸ h))
  refine looks_world.keepsAt_bind fun u hu => ?_
  subst hu
  refine keepsAt_bind (keepsAt_lift (Engine.keepsAt_modify (hn name hlt ?_ ?_ ?_)))
    fun _ y hy _ => ?_
  · exact fun ⟨n, h⟩ => hold h rfl
  · rw [hst]
  · rw [hst]
  · refine keepsAt_bind ?_ fun _ v _ _ => keeps_pure _ v
    cases ho : (w.founding x.config x.affinity).names.stores.find? name with
    | none => exact keeps_pure _ y
    | some old =>
      cases hy
      exact keepsAt_lift (hr ho (hold ho) hv'.1)

/-- A store that nobody uses loses its name, and is dropped. -/
theorem dropStore_named {L : Law}
    (hn : ∀ {w : World} {name s}, w.names.stores.find? name = some s → L.inv w →
      L.Holds w .done (w.unnaming name))
    (hd : ∀ {w : World} {name s}, w.names.stores.find? name = some s →
      (w.store s).inUse = false → L.inv w → (Engine.dropStore s).KeepsAt L (w.unnaming name))
    (name : String) : (dropStore name).run.Keeps L := by
  intro w hw
  refine (looks_named .store Names.stores name).keepsAt_bind (fun s hs =>
    (looks_checkUnused s).keepsAt_bind fun _ hu => ?_) hw
  refine keepsAt_bind (keepsAt_lift (Engine.keepsAt_modify (hn hs))) fun _ v hv hv' => ?_
  cases hv
  exact keepsAt_lift_bind (hd hs hu hw) fun _ v _ _ => keeps_pure _ v

theorem newStore_estates (name : String) (plan : StorePlan) :
    (newStore name plan).run.Keeps estates := by
  refine newStore_named And.left (fun _ _ ha => Engine.buildStore_estate ha)
    (fun {w} name s hs hn hd hr hw => ?_) (fun {w name s old} ho hne hw => ?_) name plan
  · refine estate_renaming (valid_naming hs) (fun {n n' t} h h' hp => ?_)
      (fun {n t} h hp => ?_) hw
    · rcases find?_naming h with ⟨he, ht⟩ | ⟨-, h⟩ <;>
        rcases find?_naming h' with ⟨he', ht'⟩ | ⟨-, h'⟩
      · exact he.trans he'.symm
      · exact absurd ⟨_, ht ▸ h'⟩ hn
      · exact absurd ⟨_, ht' ▸ h⟩ hn
      · exact hp.single h h'
    · rcases find?_naming h with ⟨-, rfl⟩ | ⟨-, h⟩
      · exact ⟨hd, hr⟩
      · exact ((hw.2 hp).stores (hw.1.names.stores h)).named ⟨n, h⟩
  · have hlt := hw.1.names.stores ho
    refine Engine.replace_estates (w := w.naming name s) hlt fun hp =>
      ⟨?_, (((hw.2 hp).stores hlt).named ⟨name, ho⟩).1⟩
    rintro ⟨n, h⟩
    rcases find?_naming h with ⟨-, rfl⟩ | ⟨hn, h⟩
    · exact hne rfl
    · exact hn ((hw.2 hp).single h ho)

theorem dropStore_estates (name : String) : (dropStore name).run.Keeps estates := by
  refine dropStore_named (fun {w name s} hs hw => ?_) (fun {w name s} hs hu hw => ?_) name
  · refine estate_renaming valid_unnaming (fun {n n' t} h h' hp => ?_)
      (fun {n t} h hp => ?_) hw
    · exact hp.single (find?_unnaming h).2 (find?_unnaming h').2
    · have h := (find?_unnaming h).2
      exact ((hw.2 hp).stores (hw.1.names.stores h)).named ⟨n, h⟩
  · have hlt := hw.1.names.stores hs
    refine Engine.dropStore_estates (w := w.unnaming name) hlt (fun hp =>
      ⟨?_, (((hw.2 hp).stores hlt).named ⟨name, hs⟩).1⟩) hu
    rintro ⟨n, h⟩
    obtain ⟨hne, h⟩ := find?_unnaming h
    exact hne ((hw.2 hp).single h hs)

variable (hc : ∀ r, (call r).Keeps estates)

include hc

theorem create_estates (storeName key name : String) (type : ValueType) (argument : Literal)
    (convert : Option ArgumentType) (plan : FactoryPlan Script) :
    (create call storeName key name type argument convert plan).run.Keeps estates := by
  intro w hw
  refine (looks_storeNamed _).keepsAt_bind (fun s hs => owning_kept fun hu => ?_) hw
  refine Engine.owning_estates hs hu fun hl hw' => ?_
  refine keepsAt_bind (keepsAt_holding ((factory_brings (estate_basics _) s plan).1 _))
    (fun f v hr hv => ?_) hw'
  have hf : v.Supplies estates f := (factory_brings (estate_basics _) s plan).2 hw'.1 hr f rfl
  have hlv := hl.mono hv
  refine (looks_orUnreadable _).keepsAt_bind fun value _ => ?_
  refine keepsAt_bind (orFault_keepsAt (Engine.create_holding hc name value hf hlv))
    fun id u _ _ => looks_world.keepsAt_bind fun x _ => ?_
  exact keepsAt_bind (rename_keepsAt (holding_basics s) rfl rfl (fun hn => { hn with }) .inl)
    fun _ v _ _ => keeps_pure _ v

omit hc in
theorem destroy_estates (key : String) (store : Option String) :
    (destroy key store).run.Keeps estates := by
  intro w hw
  refine (looks_named _ _ _).keepsAt_bind (fun k _ => (looks_presentedTo k store).keepsAt_bind
    fun s hs => owning_kept fun hu => ?_) hw
  refine Engine.owning_estates hs hu fun hl => ?_
  exact keepsAt_bind (orFault_keepsAt (Engine.destroy_holding k.key hl)) fun _ v _ _ =>
    keeps_pure _ v

omit hc in
/-- An item of a store that is shared is usable. -/
theorem usable_estates {w : World} {s i : Nat} (hw : estates.inv w) (hn : w.Named s)
    (ho : (w.store s).owned = false) (hi : i ∈ ((w.share s).store s).arena.toList) :
    (w.share s).Usable i := by
  have hst : (w.share s).store s = { w.store s with sharers := (w.store s).sharers + 1 } := by
    rw [share, store_modifyStore, if_pos rfl]
  have hs := hw.1.named hn
  rw [hst] at hi
  refine ⟨s, hs, hw.1.arenas hi, fun hp => ⟨?_, ?_⟩⟩
  · rw [hst]
    simp [Store.inUse]
  · have hin := (hw.2 hp).stores hs
    have hlive : (w.item i).state = .live := (hin.tidy (hin.named hn).1 ho).live hi
    change (w.item i).state ≠ .destroyed
    rw [hlive]
    decide

/-- The law of estates admits the operations of the engine. -/
theorem estate_admits : Engine.Admits call estates World.Usable :=
  (estate_lenient _).admits hc estate_panic Engine.setAffinity_estate newStore_estates
    dropStore_estates Engine.sharing_estates usable_estates (fun hu _ h => hu.mono h)
    (fun v hu => Engine.write_estate hc v hu) (create_estates hc) destroy_estates

end Performing

namespace Scenario

open World

theorem proper_empty : World.Proper {} where
  stores h := nomatch h
  unissued _ := rfl
  unused _ := ⟨rfl, rfl⟩
  unbound _ _ _ := rfl
  single h _ := by cases h
  unfounded _ := ⟨rfl, fun _ _ => rfl⟩
  joined h := by cases h
  truthful := ⟨fun h => (List.not_mem_nil h).elim, fun h => (List.not_mem_nil h).elim,
    fun h => absurd (List.suffix_nil.mp h) (List.cons_ne_nil _ _)⟩

theorem estates_unwinding (w : World) (hw : estates.inv w) :
    estates.inv { w with unwinding := false } := by
  refine ⟨sound_unwinding false hw.1, fun hp => ?_⟩
  have hu : w.Untouched { w with unwinding := false } :=
    untouched_of_same rfl (fun _ => ⟨rfl, rfl, rfl⟩) rfl (fun _ => .refl _) rfl (fun _ => .refl _)
      ⟨[], by simp, rfl⟩ fun _ hp => hp.truthful.mono { World.Grows.refl w with } ⟨[], by simp, rfl⟩
  exact hu.proper (List.suffix_refl _) hw.1 (hw.2 hp)

/-- The law holds at every moment. -/
theorem reached_estates (halt : World → Bool) (depth : Nat) (steps : List Step) :
    estates.inv (reached halt depth {} steps) :=
  reached_inv (fun _ hc => Performing.estate_admits hc) estates_unwinding halt depth steps
    ⟨sound_empty, fun _ => proper_empty⟩

/-- Between steps no store is in use. -/
theorem settled_estates {depth : Nat} {steps : List Step} {w : World}
    (h : settled depth {} steps = some w) :
    estates.inv w ∧ (¬ Panicked w.history → ∀ s, (w.store s).inUse = false) := by
  refine settled_inv (P := fun w => ¬ Panicked w.history → ∀ s, (w.store s).inUse = false)
    (fun _ hc => Performing.estate_admits hc) estates_unwinding (fun _ h => h) ?_
    ⟨sound_empty, fun _ => proper_empty⟩ (fun _ _ => rfl) h
  intro w e w' _ hw h hne hp s
  cases e with
  | done => exact (leaves_of_estates h hp s).inUse.trans (hw (fun h' => hp (h.2.1.panicked h')) s)
  | panicked => exact absurd (h.2.2.1 rfl) hp
  | stuck => exact absurd rfl hne

end Scenario

end GuardedStore
