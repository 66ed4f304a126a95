import GuardedStore.Proofs.Apart.Stores
import GuardedStore.Proofs.Run.Admits

/-!
What steps of the side look up and make.

Names of the side stand for the same in both worlds, but for addresses, and a step that finds
nothing or finds a store in use ends early in the same answer. Aspects that are made in both worlds
are twins.
-/
namespace GuardedStore

variable {c : Side} {lone : Bool} {t : Twins}

/-- A key either finds twin items in both worlds or finds the same fault. -/
theorem World.Alike.locate {u' u : World} (h : u'.Alike c lone t u) {n : Nat} (hn : c.stores n)
    (key : Key) :
    (∃ f, u'.locate n key = .error f ∧ u.locate n key = .error f) ∨
      ∃ i j, u'.locate n key = .ok i ∧ u.locate n key = .ok j ∧ t.items i j := by
  have hst := h.stores hn
  unfold World.locate
  dsimp only
  rw [hst.id]
  split
  · exact .inl ⟨_, rfl, rfl⟩
  obtain ⟨h', hz⟩ | ⟨i, j, h', hz, hij⟩ := rel_cases (hst.arena.get? key.id)
  · rw [h', hz]
    exact .inl ⟨_, rfl, rfl⟩
  · rw [h', hz]
    dsimp only
    rw [(h.items hij).descriptor]
    split
    · exact .inr ⟨i, j, rfl, rfl, hij⟩
    · exact .inl ⟨_, rfl, rfl⟩

namespace Performing

variable {α β γ δ : Type} {m' : Performing α} {m : Performing β} {Q : Twins → α → β → Prop}
  {R : Twins → γ → δ → Prop}

/-- Both go on, with results as described, or both end early in the same answer. -/
inductive Ended (Q : α → β → Prop) : Except Answer α → Except Answer β → Prop where
  | ok {a : α} {b : β} (h : Q a b) : Ended Q (.ok a) (.ok b)
  | error (e : Answer) : Ended Q (.error e) (.error e)

theorem Ended.imp {Q R : α → β → Prop} (h : ∀ {a b}, Q a b → R a b) {x : Except Answer α}
    {y : Except Answer β} (hx : Ended Q x y) : Ended R x y := by
  cases hx with
  | ok hq => exact .ok (h hq)
  | error e => exact .error e

def Tracks (c : Side) (lone : Bool) (t : Twins) (m' : Performing α) (m : Performing β)
    (Q : Twins → α → β → Prop) : Prop :=
  Engine.Tracks c lone t m'.run m.run fun s => Ended (Q s)

theorem Tracks.mono {s : Twins} (h : Tracks c lone t m' m Q) (hle : t ≤ s) :
    Tracks c lone s m' m Q :=
  Engine.Tracks.mono h hle

theorem tracks_pure {a : α} {b : β} (h : ∀ s, t ≤ s → Q s a b) :
    Tracks c lone t (pure a) (pure b) Q :=
  Engine.tracks_pure fun s hs => .ok (h s hs)

theorem tracks_same (a : α) : Tracks c lone t (pure a) (pure a) Twins.Same :=
  tracks_pure fun _ _ => rfl

theorem tracks_throw (e : Answer) : Tracks c lone t (throw e) (throw e) Q :=
  Engine.tracks_pure fun _ _ => .error e

theorem Tracks.bind {f' : α → Performing γ} {f : β → Performing δ} (hm : Tracks c lone t m' m Q)
    (hf : ∀ s a b, t ≤ s → Q s a b → Tracks c lone s (f' a) (f b) R) :
    Tracks c lone t (m' >>= f') (m >>= f) R := by
  unfold Tracks
  rw [ExceptT.run_bind, ExceptT.run_bind]
  refine Engine.Tracks.bind hm fun s x y hs h => ?_
  cases h with
  | ok h => exact hf s _ _ hs h
  | error e => exact Engine.tracks_pure fun _ _ => .error e

/-- What follows something of which only the effect matters. -/
theorem Tracks.seq {f' : α → Performing γ} {f : β → Performing δ} (hm : Tracks c lone t m' m Q)
    (hf : ∀ a b, Tracks c lone t (f' a) (f b) R) : Tracks c lone t (m' >>= f') (m >>= f) R :=
  hm.bind fun _ a b hs _ => (hf a b).mono hs

/-- What follows a result that is the same. -/
theorem Tracks.same {m' m : Performing α} {f' : α → Performing γ} {f : α → Performing δ}
    (hm : Tracks c lone t m' m Twins.Same) (hf : ∀ a, Tracks c lone t (f' a) (f a) R) :
    Tracks c lone t (m' >>= f') (m >>= f) R := by
  refine hm.bind fun s a b hs hab => ?_
  rw [show a = b from hab]
  exact (hf b).mono hs

theorem tracks_world_bind {f' : World → Performing γ} {f : World → Performing δ}
    (h : ∀ s u' u, t ≤ s → World.Alike c lone s u' u → Tracks c lone s (f' u') (f u) R) :
    Tracks c lone t (world >>= f') (world >>= f) R :=
  fun s u' u hs hu => h s u' u hs hu s u' u s.le_refl hu

theorem tracks_lift {m' : Engine α} {m : Engine β} (h : Engine.Tracks c lone t m' m Q)
    (hQ : ∀ {s r a b}, s ≤ r → Q s a b → Q r a b) :
    Tracks c lone t (liftM m' : Performing α) (liftM m) Q := by
  unfold Tracks
  rw [run_lift, run_lift]
  exact h.bind fun s a b _ hab => Engine.tracks_pure fun r hr => .ok (hQ hr hab)

theorem tracks_lift_same {m' m : Engine α} (h : Engine.Tracks c lone t m' m Twins.Same) :
    Tracks c lone t (liftM m' : Performing α) (liftM m) Twins.Same :=
  tracks_lift h fun _ h => h

theorem tracks_lift_any {m' : Engine α} {m : Engine β} (h : Engine.Tracks c lone t m' m Twins.Any) :
    Tracks c lone t (liftM m' : Performing α) (liftM m) Twins.Any :=
  tracks_lift h fun _ _ => trivial

theorem Tracks.ensure {k' k : Engine Unit} (hm : Tracks c lone t m' m Q)
    (hQ : ∀ {s r a b}, s ≤ r → Q s a b → Q r a b) (hk : Engine.Tracks c lone t k' k Twins.Any) :
    Tracks c lone t (ensure m' k') (ensure m k) Q :=
  Engine.Tracks.ensure hm (fun hr h => h.imp (hQ hr)) hk

theorem tracks_orFault {m' m : Engine (Except Fault α)}
    (h : Engine.Tracks c lone t m' m Twins.Same) :
    Tracks c lone t (orFault m') (orFault m) Twins.Same := by
  refine (tracks_lift_same h).same fun r => ?_
  cases r with
  | ok a => exact tracks_same a
  | error fault => exact tracks_throw _

theorem tracks_orUnreadable (a : Option α) :
    Tracks c lone t (orUnreadable a) (orUnreadable a) Twins.Same := by
  cases a with
  | some a => exact tracks_same a
  | none => exact tracks_throw _

theorem tracks_rename {f' f : Names → Names}
    (hf : ∀ s n' n, t ≤ s → n'.Twin s c n → (f' n').Twin s c (f n))
    (hs : ∀ n : Names, n.Confined c (f n)) :
    Tracks c lone t (rename f') (rename f) Twins.Any :=
  tracks_lift_any (Engine.tracks_modify fun s _ _ hs' hu =>
    hu.rename (hf s _ _ hs' hu.names) (hs _))

/-- What is changed for a while and put back as it was. -/
theorem Tracks.around {e k : World → World → World}
    (enter : ∀ s u' u, World.Alike c lone s u' u → World.Alike c lone s (e u' u') (e u u))
    (hm : Tracks c lone t m' m Q)
    (leave : ∀ s r u' u v' v, World.Alike c lone s u' u →
      World.Onward c lone s (e u' u') (e u u) r v' v →
      World.Onward c lone s u' u r (k u' v') (k u v)) :
    Tracks c lone t
      (do let w ← world; update (e w); Performing.ensure m' (Engine.modify (k w)))
      (do let w ← world; update (e w); Performing.ensure m (Engine.modify (k w))) Q :=
  fun s u' u hs => Engine.Tracks.around (enter s u' u) (hm.mono hs)
    fun r v' v hu => leave s r u' u v' v hu

section Lookups

theorem tracks_named {A : Twins → α → β → Prop} (kind : Missing) {table' : Names → Table String α}
    {table : Names → Table String β} (name : String)
    (h : ∀ s (n' n : Names), n'.Twin s c n →
      Option.Rel (A s) ((table' n').find? name) ((table n).find? name))
    (hA : ∀ {s r a b}, s ≤ r → A s a b → A r a b) :
    Tracks c lone t (named kind table' name) (named kind table name) A := by
  refine tracks_world_bind fun s u' u _ hu => ?_
  obtain ⟨h', hz⟩ | ⟨a, b, h', hz, hab⟩ := rel_cases (h s _ _ hu.names)
  · rw [h', hz]
    exact tracks_throw _
  · rw [h', hz]
    exact tracks_pure fun _ hr => hA hr hab

/-- A result that is the same, and of which something is known. -/
def Known (P : α → Prop) : Twins → α → α → Prop := fun _ a b => a = b ∧ P b

theorem rel_known {P : α → Prop} {o' o : Option α} (h : o' = o) (hP : ∀ a, o = some a → P a)
    (s : Twins) : Option.Rel (Known P s) o' o := by
  subst h
  cases o' with
  | none => exact .none
  | some a => exact .some ⟨rfl, hP a rfl⟩

/-- What follows a result that is the same and of which something is known. -/
theorem Tracks.known {P : α → Prop} {m' m : Performing α} {f' : α → Performing γ}
    {f : α → Performing δ} (hm : Tracks c lone t m' m (Known P))
    (hf : ∀ a, P a → Tracks c lone t (f' a) (f a) R) :
    Tracks c lone t (m' >>= f') (m >>= f) R := by
  refine hm.bind fun s a b hs hab => ?_
  rw [hab.1]
  exact (hf b hab.2).mono hs

variable {name : String} (hname : c.names name)

include hname

theorem tracks_storeNamed :
    Tracks c lone t (storeNamed name) (storeNamed name) (Known fun s => c.stores s) :=
  tracks_named _ _ (fun s _ _ h => rel_known (h.stores hname) (fun _ => h.owned hname) s)
    fun _ h => h

theorem tracks_aspectNamed :
    Tracks c lone t (aspectNamed name) (aspectNamed name) Twins.aspects :=
  tracks_named _ _ (fun _ _ _ h => h.aspects hname) fun hle h => hle.2.1 h

theorem tracks_chainNamed :
    Tracks c lone t (chainNamed name) (chainNamed name) fun s => List.Forall₂ s.aspects :=
  tracks_named _ _ (fun _ _ _ h => h.chains hname) fun hle h => chain_mono hle h

end Lookups

/-- A key of the side's own came from a store of the side's. -/
theorem tracks_keyNamed {name : String} (hname : c.names name ∨ c.foreign name) :
    Tracks c lone t (keyNamed name) (keyNamed name)
      (Known fun k => c.names name → c.names k.storeName) :=
  tracks_named _ _ (fun s _ _ h => rel_known (h.keys hname)
    (fun _ hk hown => h.keyStores hown hk) s) fun _ h => h

theorem tracks_storeIdNamed (name : String) :
    Tracks c lone t (storeIdNamed name) (storeIdNamed name) Twins.Same := by
  unfold storeIdNamed
  split
  · exact tracks_same _
  · refine tracks_named _ _ (fun s n' n h => ?_) fun _ h => h
    rw [h.storeIds]
    cases n.storeIds.find? name with
    | none => exact .none
    | some id => exact .some rfl

theorem tracks_domainNamed (name : String) :
    Tracks c lone t (domainNamed name) (domainNamed name) Twins.Same := by
  refine tracks_named _ _ (fun s n' n h => ?_) fun _ h => h
  rw [h.domains]
  cases n.domains.find? name with
  | none => exact .none
  | some d => exact .some rfl

theorem tracks_affinityNamed (name : Option String) :
    Tracks c lone t (affinityNamed name) (affinityNamed name) Twins.Same := by
  cases name with
  | none => exact tracks_same none
  | some name =>
    rw [affinityNamed, map_eq_pure_bind]
    exact (tracks_domainNamed name).same fun _ => tracks_same _

theorem tracks_sourceNamed {source : SourceName}
    (h : ∀ n ∈ source.keys, c.names n ∨ c.foreign n) :
    Tracks c lone t (sourceNamed source) (sourceNamed source) Twins.Same := by
  cases source with
  | key key => exact (tracks_keyNamed (h key List.mem_cons_self)).known fun k _ => tracks_same _
  | store s => exact (tracks_storeIdNamed s).same fun _ => tracks_same _
  | item s id => exact (tracks_storeIdNamed s).same fun _ => tracks_same _

theorem tracks_refuseWhen (step : String) {forbidden : World → Bool}
    (h : ∀ s u' u, World.Alike c lone s u' u → forbidden u' = forbidden u) :
    Tracks c lone t (refuseWhen step forbidden) (refuseWhen step forbidden) Twins.Any := by
  refine tracks_world_bind fun s u' u _ hu => ?_
  rw [h s u' u hu]
  split
  · exact tracks_throw _
  · exact tracks_pure fun _ _ => trivial

section Stores

variable {n : Nat} (hn : c.stores n)

include hn

theorem tracks_checkShareable :
    Tracks c lone t (checkShareable n) (checkShareable n) Twins.Any := by
  refine tracks_world_bind fun s u' u _ hu => ?_
  rw [(hu.stores hn).owned]
  split
  · exact tracks_throw _
  · exact tracks_pure fun _ _ => trivial

theorem tracks_checkUnused : Tracks c lone t (checkUnused n) (checkUnused n) Twins.Any := by
  refine tracks_world_bind fun s u' u _ hu => ?_
  unfold Store.inUse
  rw [(hu.stores hn).owned, (hu.stores hn).sharers]
  split
  · exact tracks_throw _
  · exact tracks_pure fun _ _ => trivial

theorem tracks_sharing (hm : Tracks c lone t m' m Q)
    (hQ : ∀ {s r a b}, s ≤ r → Q s a b → Q r a b) :
    Tracks c lone t (sharing n m') (sharing n m) Q := by
  refine (tracks_checkShareable hn).seq fun _ _ => ?_
  refine Tracks.seq (tracks_lift_any (Engine.tracks_modifyStore hn (fun _ _ _ _ hx =>
    { hx with sharers := congrArg (· + 1) hx.sharers }) fun _ => rfl)) fun _ _ => ?_
  exact hm.ensure hQ (Engine.tracks_endSharing hn)

theorem tracks_owning (hm : Tracks c lone t m' m Q)
    (hQ : ∀ {s r a b}, s ≤ r → Q s a b → Q r a b) :
    Tracks c lone t (owning n m') (owning n m) Q := by
  refine (tracks_checkUnused hn).seq fun _ _ => ?_
  refine Tracks.seq (tracks_lift_any (Engine.tracks_modifyStore hn (fun _ _ _ _ hx =>
    { hx with owned := rfl }) fun _ => rfl)) fun _ _ => ?_
  exact hm.ensure hQ (Engine.tracks_endOwning hn)

end Stores

/-- A key is presented to a store of the side: one that is named, or the one it came from if it is
the side's own. -/
theorem tracks_presentedTo {key : String} {store : Option String}
    (hstore : c.names (store.getD key)) {k : NamedKey} (hk : c.names key → c.names k.storeName) :
    Tracks c lone t (presentedTo k store) (presentedTo k store) (Known fun s => c.stores s) := by
  refine tracks_storeNamed ?_
  cases store with
  | none => exact hk hstore
  | some s => exact hstore

theorem tracks_withItem {key : String} {store : Option String}
    (hkey : c.names key ∨ c.foreign key) (hstore : c.names (store.getD key))
    {f : NamedKey → Nat → Nat → Performing γ}
    (hf : ∀ s k n i j, c.stores n → s.items i j → Tracks c lone s (f k n i) (f k n j) Twins.Same) :
    Tracks c lone t (withItem key store f) (withItem key store f) Twins.Same := by
  refine (tracks_keyNamed hkey).known fun k hk => ?_
  refine (tracks_presentedTo hstore hk).known fun n hn => tracks_sharing hn ?_ fun _ h => h
  refine tracks_world_bind fun s u' u _ hu => ?_
  obtain ⟨fault, h', h⟩ | ⟨i, j, h', h, hij⟩ := hu.locate hn k.key
  · rw [h', h]
    exact tracks_throw _
  · rw [h', h]
    exact hf s k n i j hn hij

/-! ### What is made for the side -/

section Making

theorem tracks_routine {script : Option Script} (hs : ∀ f ∈ script, f.KeepsTo c) :
    Engine.Tracks c lone t (routine script) (routine script) fun s => Option.Rel s.routines := by
  cases script with
  | none => exact Engine.tracks_pure fun _ _ => .none
  | some f =>
    exact (Engine.tracks_newRoutine (hs f rfl)).bind fun s i j _ hij =>
      Engine.tracks_pure fun _ hr => .some (hr.2.2.1 hij)

theorem tracks_probe {p : Probe Script} (hp : ∀ f ∈ (AspectPlan.probe p).scripts, f.KeepsTo c) :
    Engine.Tracks c lone t (probe p) (probe p) fun s p' p => p'.Twin s p := by
  have hook (x : Twins) (h : Hook) : Engine.Tracks c lone x (routine (p.script h))
      (routine (p.script h)) fun s => Option.Rel s.routines :=
    tracks_routine fun f hf => hp f (AspectPlan.mem_scripts hf)
  refine Engine.Tracks.bind (hook t _) fun s1 a1 b1 _ h1 => ?_
  refine Engine.Tracks.bind (hook s1 _) fun s2 a2 b2 hs2 h2 => ?_
  refine Engine.Tracks.bind (hook s2 _) fun s3 a3 b3 hs3 h3 => ?_
  refine Engine.Tracks.bind (hook s3 _) fun s4 a4 b4 hs4 h4 => ?_
  refine Engine.tracks_pure fun s hs => ⟨rfl, rfl, rfl, rfl, fun h => ?_, rfl, rfl⟩
  replace hs4 := Twins.le_trans hs4 hs
  replace hs3 := Twins.le_trans hs3 hs4
  replace hs2 := Twins.le_trans hs2 hs3
  cases h with
  | beforeWrite => exact rel_imp hs2.2.2.1 h1
  | afterWrite => exact rel_imp hs3.2.2.1 h2
  | beforeRead => exact rel_imp hs4.2.2.1 h3
  | afterRead => exact rel_imp hs.2.2.1 h4

theorem tracks_aspect {plan : AspectPlan Script} (hp : ∀ f ∈ plan.scripts, f.KeepsTo c) :
    Engine.Tracks c lone t (aspect plan) (aspect plan) Twins.aspects := by
  cases plan with
  | audit => exact Engine.tracks_newAspect (.audit _)
  | lock patience => exact Engine.tracks_newAspect (.lock ⟨rfl, .none, rfl⟩)
  | plain name => exact Engine.tracks_newAspect (.plain name)
  | validation v => exact Engine.tracks_newAspect (.validation _)
  | probe p => exact (tracks_probe hp).bind fun s _ _ _ h => Engine.tracks_newAspect (.probe h)

/-- The aspects that a configuration asks for are made in both worlds. -/
theorem tracks_configured (config : AspectConfig) :
    Engine.Tracks c lone t (configured config) (configured config)
      fun s => List.Forall₂ s.aspects := by
  refine Engine.tracks_mapM (A := fun a b => ∀ s, Aspect.Twin s a b) (B := Twins.aspects)
    (fun hle h => hle.2.1 h)
    (fun a b h => Engine.tracks_newAspect (h t)) (List.forall₂_same.mpr fun a ha s => ?_)
  have hcases : a = .audit {} ∨ a = .lock { patience := .milliseconds config.lockTimeout } := by
    unfold AspectConfig.aspects at ha
    rcases List.mem_append.mp ha with h | h
    · exact .inl (by simpa using (List.mem_ite_nil_right.mp h).2)
    · exact .inr (by simpa using (List.mem_ite_nil_right.mp h).2)
  rcases hcases with rfl | rfl
  · exact .audit _
  · exact .lock ⟨rfl, .none, rfl⟩

theorem tracks_link {l : Link Script} (hw : ∀ n ∈ l.words, c.names n)
    (hs : ∀ f ∈ l.scripts, f.KeepsTo c) :
    Tracks c lone t (link l) (link l) Twins.aspects := by
  cases l with
  | shared name => exact tracks_aspectNamed (hw name (by simp [Link.words]))
  | fresh plan => exact tracks_lift (tracks_aspect hs) fun hle h => hle.2.1 h

theorem tracks_mapM {A : α → Prop} {B : Twins → γ → δ → Prop} {f' : α → Performing γ}
    {f : α → Performing δ} (hB : ∀ {s r a b}, s ≤ r → B s a b → B r a b)
    (hf : ∀ a s, t ≤ s → A a → Tracks c lone s (f' a) (f a) B) {l : List α} (hl : ∀ a ∈ l, A a) :
    Tracks c lone t (l.mapM f') (l.mapM f) fun s => List.Forall₂ (B s) := by
  induction l generalizing t with
  | nil => exact tracks_pure fun _ _ => .nil
  | cons a l ih =>
    rw [List.mapM_cons, List.mapM_cons]
    refine (hf a t t.le_refl (hl a List.mem_cons_self)).bind fun s x y hs hxy => ?_
    refine (ih (fun b r hr => hf b r (Twins.le_trans hs hr))
      fun b hb => hl b (List.mem_cons_of_mem _ hb)).bind fun r xs ys hr hxys => ?_
    exact tracks_pure fun q hq =>
      .cons (hB (Twins.le_trans hr hq) hxy) (hxys.imp fun _ _ => hB hq)

theorem tracks_links {ls : List (Link Script)} (hw : ∀ n ∈ ls.flatMap Link.words, c.names n)
    (hs : ∀ f ∈ ls.flatMap Link.scripts, f.KeepsTo c) :
    Tracks c lone t (links ls) (links ls) fun s => List.Forall₂ s.aspects :=
  tracks_mapM (A := (· ∈ ls)) (B := Twins.aspects) (fun hle h => hle.2.1 h) (fun l _ _ hl =>
    tracks_link (fun n hn => hw n (List.mem_flatMap.mpr ⟨l, hl, hn⟩))
      fun f hf => hs f (List.mem_flatMap.mpr ⟨l, hl, hf⟩)) fun _ h => h

/-- What a factory gives an item is found by its name in both worlds. -/
theorem lookup_twin {s : Twins} {l' l : List (String × List Nat)}
    (h : List.Forall₂ (fun x' x => x'.1 = x.1 ∧ List.Forall₂ s.aspects x'.2 x.2) l' l)
    (name : String) :
    List.Forall₂ s.aspects ((l'.lookup name).getD []) ((l.lookup name).getD []) := by
  induction h with
  | nil => exact .nil
  | cons hx _ ih =>
    rw [List.lookup_cons, List.lookup_cons, hx.1]
    split
    · exact hx.2
    · exact ih

theorem tracks_chainSource {source : ChainSource Script} (hw : ∀ n ∈ source.words, c.names n)
    (hs : ∀ f ∈ source.scripts, f.KeepsTo c) :
    Tracks c lone t (chainSource source) (chainSource source)
      fun s f' f => ∀ d, List.Forall₂ s.aspects (f' d) (f d) := by
  cases source with
  | chain name =>
    exact (tracks_chainNamed (hw name (by simp [ChainSource.words]))).bind fun s _ _ _ h =>
      tracks_pure fun _ hr _ => chain_mono hr h
  | links ls =>
    exact (tracks_links hw hs).bind fun s _ _ _ h => tracks_pure fun _ hr _ => chain_mono hr h
  | byItem items =>
    refine Tracks.bind (tracks_mapM (A := (· ∈ items))
      (B := fun s (x' x : String × List Nat) => x'.1 = x.1 ∧ List.Forall₂ s.aspects x'.2 x.2)
      (fun hle h => ⟨h.1, chain_mono hle h.2⟩) (fun x s _ hx => ?_) fun _ h => h)
      fun s l' l _ h => tracks_pure fun r hr d => chain_mono hr (lookup_twin h d.name)
    refine Tracks.bind (tracks_links (fun n hn => hw n (List.mem_flatMap.mpr ⟨x, hx, hn⟩))
      fun f hf => hs f (List.mem_flatMap.mpr ⟨x, hx, hf⟩)) fun r _ _ _ h => ?_
    exact tracks_pure fun q hq => ⟨rfl, chain_mono hq h⟩

theorem tracks_factory {n : Nat} (hn : c.stores n) {plan : FactoryPlan Script}
    (hw : ∀ n ∈ plan.words, c.names n) (hs : ∀ f ∈ plan.scripts, f.KeepsTo c) :
    Tracks c lone t (factory n plan) (factory n plan) (Engine.Chains c lone) := by
  cases plan with
  | store =>
    refine tracks_world_bind fun s u' u _ hu => ?_
    rw [(hu.stores hn).config]
    exact tracks_pure fun r _ _ => tracks_configured _
  | none => exact tracks_pure fun _ _ _ => Engine.tracks_pure fun _ _ => .nil
  | config config => exact tracks_pure fun _ _ _ => tracks_configured config
  | custom spy panics source =>
    refine (tracks_chainSource hw hs).bind fun s f' f _ h => tracks_pure fun r hr d => ?_
    have last : Engine.Tracks c lone r (pure (f' d)) (pure (f d)) fun s => List.Forall₂ s.aspects :=
      Engine.tracks_pure fun _ hq => chain_mono (Twins.le_trans hr hq) (h d)
    have asked : Engine.Tracks c lone r
        (do if panics then Engine.panic "factory"
            return f' d : Engine (List Nat))
        (do if panics then Engine.panic "factory"
            return f d : Engine (List Nat)) fun s => List.Forall₂ s.aspects := by
      cases panics
      · exact last
      · exact Engine.Tracks.seq (Q := Twins.Any) Engine.tracks_panic fun _ _ => last
    cases spy
    · exact asked
    · exact Engine.Tracks.seq (Engine.tracks_record (fun _ => rfl) fun _ => rfl) fun _ _ => asked

end Making

end Performing

end GuardedStore
