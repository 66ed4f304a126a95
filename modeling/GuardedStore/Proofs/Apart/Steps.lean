import GuardedStore.Proofs.Apart.Lookups
import Mathlib.Data.Option.Basic

/-!
Steps of the side.

A step that keeps to the side is answered the same in both worlds, whatever scripts it sets off: the
routines of the side ask for nothing but steps that keep to the side.
-/
namespace GuardedStore

variable {c : Side} {lone : Bool} {t : Twins}

theorem Step.KeepsTo.kind {s : Step} (h : s.KeepsTo c) : s.ofStores := by
  cases h
  assumption

theorem Step.KeepsTo.words {s : Step} (h : s.KeepsTo c) : ∀ n ∈ s.words, c.names n := by
  cases h
  assumption

theorem Step.KeepsTo.keys {s : Step} (h : s.KeepsTo c) :
    ∀ n ∈ s.keys, c.names n ∨ c.foreign n := by
  cases h
  assumption

theorem Step.KeepsTo.hung {s : Step} (h : s.KeepsTo c) : ∀ f ∈ s.hung, f.KeepsTo c := by
  cases h
  assumption

theorem Side.ne_of_names {x y : String} (hx : c.names x = false) (hy : c.names y) : x ≠ y := by
  rintro rfl
  rw [hx] at hy
  cases hy

namespace Names

variable {n' n : Names}

theorem Twin.eraseStore (h : n'.Twin t c n) (name : String) :
    Twin t c { n' with stores := n'.stores.erase name } { n with stores := n.stores.erase name } :=
  { h with
    stores := fun hx => by rw [Table.find?_erase, Table.find?_erase, h.stores hx]
    owned := fun hx hs => by
      rw [Table.find?_erase] at hs
      split at hs
      · cases hs
      · exact h.owned hx hs }

theorem confined_eraseStore (n : Names) {name : String} (hname : c.names name) :
    n.Confined c { n with stores := n.stores.erase name } :=
  { Confined.refl c n with
    stores := fun hx => Table.find?_erase_of_ne _ (Side.ne_of_names hx hname) }

theorem Twin.putKey (h : n'.Twin t c n) (name : String) {k : NamedKey} (hk : c.names k.storeName) :
    Twin t c { n' with keys := n'.keys.put name k } { n with keys := n.keys.put name k } :=
  { h with
    keys := fun hx => by rw [Table.find?_put, Table.find?_put, h.keys hx]
    keyStores := fun hx hs => by
      rw [Table.find?_put] at hs
      split at hs
      · cases hs
        exact hk
      · exact h.keyStores hx hs }

theorem confined_putKey (n : Names) {name : String} (hname : c.names name) (k : NamedKey) :
    n.Confined c { n with keys := n.keys.put name k } :=
  { Confined.refl c n with
    keys := fun hx => Table.find?_put_of_ne _ _ (Side.ne_of_names hx hname) }

theorem Twin.putAspect (h : n'.Twin t c n) (name : String) {i j : Nat} (hij : t.aspects i j) :
    Twin t c { n' with aspects := n'.aspects.put name i }
      { n with aspects := n.aspects.put name j } :=
  { h with
    aspects := fun hx => by
      rw [Table.find?_put, Table.find?_put]
      split
      · exact .some hij
      · exact h.aspects hx }

theorem confined_putAspect (n : Names) {name : String} (hname : c.names name) (j : Nat) :
    n.Confined c { n with aspects := n.aspects.put name j } :=
  { Confined.refl c n with
    aspects := fun hx => Table.find?_put_of_ne _ _ (Side.ne_of_names hx hname) }

theorem Twin.putChain (h : n'.Twin t c n) (name : String) {l' l : List Nat}
    (hl : List.Forall₂ t.aspects l' l) :
    Twin t c { n' with chains := n'.chains.put name l' }
      { n with chains := n.chains.put name l } :=
  { h with
    chains := fun hx => by
      rw [Table.find?_put, Table.find?_put]
      split
      · exact .some hl
      · exact h.chains hx }

theorem confined_putChain (n : Names) {name : String} (hname : c.names name) (l : List Nat) :
    n.Confined c { n with chains := n.chains.put name l } :=
  { Confined.refl c n with
    chains := fun hx => Table.find?_put_of_ne _ _ (Side.ne_of_names hx hname) }

end Names

/-! ### What steps look at -/

namespace World.Alike

variable {u' u : World} (h : u'.Alike c lone t u)

include h

theorem domainName (affinity : Option Nat) : u'.domainName affinity = u.domainName affinity := by
  unfold World.domainName
  cases affinity with
  | none => rfl
  | some d => rw [Option.map_some, Option.map_some, (h.domains d).label]

theorem inspectAffinity (affinity : Option Nat) :
    u'.inspectAffinity affinity = u.inspectAffinity affinity := by
  unfold World.inspectAffinity
  rw [h.domainName]

variable {n : Nat} (hn : c.stores n)

include hn

theorem itemsOf : List.Forall₂ (Item.Twin t c) (u'.itemsOf n) (u.itemsOf n) :=
  List.rel_map (fun _ _ hij => h.items hij) (h.stores hn).arena.toList

omit h hn in
theorem map_descriptor {α : Type} {f : Descriptor → α} {l' l : List Item}
    (hl : List.Forall₂ (Item.Twin t c) l' l) :
    (l'.map fun i => f i.descriptor) = l.map fun i => f i.descriptor := by
  induction hl with
  | nil => rfl
  | cons hx _ ih => rw [List.map_cons, List.map_cons, hx.descriptor, ih]

theorem find? (type : ValueType) (name : String) : u'.find? n type name = u.find? n type name := by
  have hst := h.stores hn
  unfold World.find?
  dsimp only
  rw [hst.names, hst.id]
  cases (u.store n).names.find? name with
  | none => rfl
  | some id =>
    obtain ⟨h', hz⟩ | ⟨i, j, h', hz, hij⟩ := rel_cases (hst.arena.get? id)
    · simp [h', hz]
    · simp [h', hz, (h.items hij).descriptor]

theorem inspectStore : u'.inspectStore n = u.inspectStore n := by
  have hst := h.stores hn
  unfold World.inspectStore
  dsimp only
  rw [hst.id, hst.config, hst.arena.size, hst.affinity, h.inspectAffinity]

omit hn in
theorem inspectItem {i j : Nat} (hij : t.items i j) : u'.inspectItem i = u.inspectItem j := by
  have hx := h.items hij
  unfold World.inspectItem
  dsimp only
  rw [hx.descriptor, hx.state, hx.writes, h.aspectNames hx.chain]

end World.Alike

namespace Performing

/-- A step that looks at a store which nobody is changing. -/
theorem tracks_inspect {name : String} (hname : c.names name) {f : Nat → World → Answer}
    (hf : ∀ s n u' u, c.stores n → World.Alike c lone s u' u → f n u' = f n u) :
    Tracks c lone t
      (do
        let store ← storeNamed name
        checkShareable store
        return f store (← world))
      (do
        let store ← storeNamed name
        checkShareable store
        return f store (← world)) Twins.Same := by
  refine (tracks_storeNamed hname).known fun n hn => (tracks_checkShareable hn).seq fun _ _ => ?_
  refine tracks_world_bind fun s u' u _ hu => ?_
  rw [hf s n u' u hn hu]
  exact tracks_same _

section Stores

variable {name : String} (hname : c.names name)

include hname

theorem tracks_dropStore : Tracks c lone t (dropStore name) (dropStore name) Twins.Same := by
  refine (tracks_storeNamed hname).known fun n hn => (tracks_checkUnused hn).seq fun _ _ => ?_
  refine (tracks_rename (fun _ _ _ _ h => h.eraseStore name)
    fun n => n.confined_eraseStore hname).seq fun _ _ => ?_
  exact (tracks_lift_any (Engine.tracks_dropStore hn)).seq fun _ _ => tracks_same _

theorem tracks_storeInfo : Tracks c lone t (storeInfo name) (storeInfo name) Twins.Same := by
  refine tracks_inspect hname fun s n u' u hn hu => ?_
  have hst := hu.stores hn
  have hitems := hu.itemsOf hn
  rw [hst.id, hst.config, hst.arena.size, hst.affinity, hst.signal.triggered,
    hst.signal.executions, hu.domainName, World.Alike.map_descriptor hitems,
    World.Alike.map_descriptor hitems]

theorem tracks_find (type : ValueType) (item : String) {key : Option String}
    (hkey : ∀ k ∈ key, c.names k) :
    Tracks c lone t (find name type item key) (find name type item key) Twins.Same := by
  refine (tracks_storeNamed hname).known fun n hn => (tracks_checkShareable hn).seq fun _ _ => ?_
  refine tracks_world_bind fun s u' u _ hu => ?_
  rw [hu.find? hn]
  cases u.find? n type item with
  | none => exact tracks_same _
  | some found =>
    cases key with
    | none => exact tracks_same _
    | some key =>
      exact Tracks.seq (tracks_rename (fun _ _ _ _ h => h.putKey key hname)
        fun n => n.confined_putKey (hkey key rfl) _) fun _ _ => tracks_same _

theorem tracks_onExecute (label : String) {run : Option Script} (hs : ∀ f ∈ run, f.KeepsTo c) :
    Tracks c lone t (onExecute name label run) (onExecute name label run) Twins.Same := by
  refine (tracks_refuseWhen _ fun s u' u hu => by rw [hu.depths.1]).seq fun _ _ =>
    (tracks_storeNamed hname).known fun n hn => (tracks_checkShareable hn).seq fun _ _ => ?_
  refine Tracks.bind (tracks_lift (tracks_routine hs) fun hle h => rel_imp hle.2.2.1 h)
    fun s r' r _ hr => ?_
  exact Tracks.seq (tracks_lift_any (Engine.tracks_onExecute hn ⟨rfl, hr⟩)) fun _ _ => tracks_same _

theorem tracks_setAffinity (step : String) (domain : Option String) :
    Tracks c lone t (setAffinity step name domain) (setAffinity step name domain) Twins.Same := by
  refine (tracks_refuseWhen _ fun s u' u hu => by rw [hu.depths.2]).seq fun _ _ =>
    (tracks_storeNamed hname).known fun n hn =>
      (tracks_affinityNamed domain).same fun affinity => ?_
  refine (tracks_checkShareable hn).seq fun _ _ => ?_
  exact (tracks_lift_any (Engine.tracks_setAffinity hn affinity)).seq fun _ _ => tracks_same _

end Stores

theorem tracks_destroy {key : String} {store : Option String}
    (hkey : c.names key ∨ c.foreign key) (hstore : c.names (store.getD key)) :
    Tracks c lone t (destroy key store) (destroy key store) Twins.Same := by
  refine (tracks_keyNamed hkey).known fun k hk => ?_
  refine (tracks_presentedTo hstore hk).known fun n hn => tracks_owning hn ?_ fun _ h => h
  exact (tracks_orFault (Engine.tracks_destroy hn _)).same fun _ => tracks_same _

theorem tracks_itemInfo {key : String} {store : Option String}
    (hkey : c.names key ∨ c.foreign key) (hstore : c.names (store.getD key)) :
    Tracks c lone t (itemInfo key store) (itemInfo key store) Twins.Same := by
  refine tracks_withItem hkey hstore fun s k n i j hn hij => tracks_world_bind fun r u' u hr hu => ?_
  have hx := hu.items (hr.1 hij)
  dsimp only
  rw [hx.descriptor, hx.state, hx.writes, hu.aspectNames hx.chain, hx.affinity,
    hu.inspectAffinity, (hu.stores hn).affinity]
  exact tracks_same _

theorem tracks_newAspect {id : String} (hid : c.names id) {plan : AspectPlan Script}
    (hs : ∀ f ∈ plan.scripts, f.KeepsTo c) :
    Tracks c lone t (newAspect id plan) (newAspect id plan) Twins.Same := by
  refine Tracks.bind (tracks_lift (tracks_aspect hs) fun hle h => hle.2.1 h) fun s i j _ hij => ?_
  exact Tracks.seq (tracks_rename (fun _ _ _ hr h => h.putAspect id (hr.2.1 hij))
    fun n => n.confined_putAspect hid j) fun _ _ => tracks_same _

theorem tracks_newChain {name : String} (hname : c.names name) {ls : List (Link Script)}
    (hw : ∀ n ∈ ls.flatMap Link.words, c.names n)
    (hs : ∀ f ∈ ls.flatMap Link.scripts, f.KeepsTo c) :
    Tracks c lone t (newChain name ls) (newChain name ls) Twins.Same := by
  refine (tracks_links hw hs).bind fun s l' l _ hl => ?_
  refine Tracks.seq (tracks_rename (fun _ _ _ hr h => h.putChain name (chain_mono hr hl))
    fun n => n.confined_putChain hname l) fun _ _ => tracks_world_bind fun r u' u hr hu => ?_
  rw [hu.aspectNames (chain_mono hr hl)]
  exact tracks_same _

theorem tracks_keyInfo {key : String} {other : Option String}
    (hkeys : ∀ n ∈ key :: other.toList, c.names n ∨ c.foreign n) :
    Tracks c lone t (keyInfo key other) (keyInfo key other) Twins.Same := by
  have hother : c.names (other.getD key) ∨ c.foreign (other.getD key) := by
    cases other with
    | none => exact hkeys key (by simp)
    | some x => exact hkeys x (by simp)
  exact (tracks_keyNamed (hkeys key List.mem_cons_self)).known fun _ _ =>
    (tracks_keyNamed hother).known fun _ _ => tracks_same _

section Calls

variable {call : Nat → Engine Unit} (follows : Engine.Follows c lone call)

include follows

theorem tracks_execute (step : String) {name : String} (hname : c.names name) :
    Tracks c lone t (execute call step name) (execute call step name) Twins.Same := by
  refine (tracks_storeNamed hname).known fun n hn => (tracks_checkShareable hn).seq fun _ _ => ?_
  refine (tracks_refuseWhen _ fun s u' u hu => by rw [hu.depths.1]).seq fun _ _ => ?_
  exact tracks_sharing hn (tracks_lift_same (Engine.tracks_executeStore follows hn)) fun _ h => h

theorem tracks_storeTrigger {name : String} (hname : c.names name) :
    Tracks c lone t (storeTrigger call name) (storeTrigger call name) Twins.Same := by
  refine (tracks_storeNamed hname).known fun n hn => tracks_sharing hn ?_ fun _ h => h
  have triggered := (tracks_lift_same (Engine.tracks_triggerStore follows hn)).around
    (t := t) (e := fun u w => { w with triggerDepth := u.triggerDepth + 1 })
    (k := fun u w => { w with triggerDepth := u.triggerDepth })
    (fun s u' u hu => { hu with depths := ⟨hu.depths.1, congrArg (· + 1) hu.depths.2⟩ })
    fun s r u' u v' v hu hv => { hv with
      right := { hv.right with depths := ⟨hv.right.depths.1, rfl⟩ }
      alike := { hv.alike with depths := ⟨hv.alike.depths.1, hu.depths.2⟩ } }
  have answered := triggered.same (R := Twins.Same) fun accepted =>
    tracks_same (Answer.truth accepted)
  simp only [bind_assoc] at answered
  exact answered

omit follows in
theorem tracks_onTrigger {name : String} {source : SourceName} (hname : c.names name)
    (hsource : ∀ n ∈ source.keys, c.names n ∨ c.foreign n) (sequence : Nat) :
    Tracks c lone t (onTrigger call name source sequence) (onTrigger call name source sequence)
      Twins.Same := by
  refine (tracks_storeNamed hname).known fun n hn => (tracks_checkShareable hn).seq fun _ _ => ?_
  refine (tracks_sourceNamed hsource).same fun source => ?_
  exact (tracks_lift_any (Engine.tracks_prompt hn _)).seq fun _ _ => tracks_same _

theorem tracks_create {storeName key : String} (hstore : c.names storeName) (hkey : c.names key)
    (name : String) (type : ValueType) (argument : Literal) (convert : Option ArgumentType)
    {plan : FactoryPlan Script} (hw : ∀ n ∈ plan.words, c.names n)
    (hs : ∀ f ∈ plan.scripts, f.KeepsTo c) :
    Tracks c lone t (create call storeName key name type argument convert plan)
      (create call storeName key name type argument convert plan) Twins.Same := by
  refine (tracks_storeNamed hstore).known fun n hn => tracks_owning hn ?_ fun _ h => h
  refine (tracks_factory hn hw hs).bind fun s f' f _ hf => ?_
  refine (tracks_orUnreadable _).same fun value => ?_
  refine (tracks_orFault (Engine.tracks_create follows hn name value hf)).same fun id => ?_
  refine tracks_world_bind fun r u' u _ hu => ?_
  rw [(hu.stores hn).id]
  exact Tracks.seq (tracks_rename (fun _ _ _ _ h => h.putKey key hstore)
    fun n => n.confined_putKey hkey _) fun _ _ => tracks_same _

section Items

variable {key : String} {store : Option String} (hkey : c.names key ∨ c.foreign key)
  (hstore : c.names (store.getD key))

include hkey hstore

theorem tracks_write (value : Literal) :
    Tracks c lone t (write call key store value) (write call key store value) Twins.Same :=
  tracks_withItem hkey hstore fun _ _ _ _ _ _ hij => (tracks_orUnreadable _).same fun value =>
    Tracks.seq (tracks_lift_any (Engine.tracks_write follows hij value)) fun _ _ => tracks_same _

theorem tracks_read : Tracks c lone t (read call key store) (read call key store) Twins.Same :=
  tracks_withItem hkey hstore fun _ _ _ _ _ _ hij =>
    (tracks_orFault (Engine.tracks_read follows hij)).same fun _ => tracks_same _

theorem tracks_readInto (init : Literal) :
    Tracks c lone t (readInto call key store init) (readInto call key store init) Twins.Same := by
  refine tracks_withItem hkey hstore fun s k n i j hn hij => (tracks_orUnreadable _).same fun init => ?_
  refine (tracks_lift_same (Engine.tracks_read follows hij)).same fun r => ?_
  cases r with
  | ok value => exact tracks_same _
  | error fault => exact tracks_same _

theorem tracks_parallelWrite (threads each : Nat) :
    Tracks c lone t (parallelWrite call key store threads each)
      (parallelWrite call key store threads each) Twins.Same := by
  refine tracks_withItem hkey hstore fun s k n i j hn hij =>
    (tracks_orUnreadable _).same fun values => ?_
  have writes : Tracks c lone s (values.forM fun v => (Engine.write call i v : Performing Unit))
      (values.forM fun v => (Engine.write call j v : Performing Unit)) Twins.Any := by
    induction values with
    | nil => exact tracks_pure fun _ _ => trivial
    | cons v values ih =>
      exact (tracks_lift_any (Engine.tracks_write follows hij v)).seq fun _ _ => ih
  have quietly := writes.around (e := fun _ w => { w with muted := true })
    (k := fun _ w => { w with muted := false }) (fun s u' u hu => { hu with muted := rfl })
    fun s r u' u v' v hu hv => { hv with
      right := { hv.right with muted := fun h => by cases h }
      alike := { hv.alike with muted := rfl } }
  have counted : Tracks c lone s (do return .writes ((← world).item i).writes : Performing Answer)
      (do return .writes ((← world).item j).writes : Performing Answer) Twins.Same := by
    refine tracks_world_bind fun r u' u hr hu => ?_
    rw [(hu.items (hr.1 hij)).writes]
    exact tracks_same _
  have answered := quietly.seq fun _ _ => counted
  simp only [bind_assoc] at answered
  exact answered

end Items

theorem tracks_perform {s : Step} (hs : s.KeepsTo c) :
    Tracks c lone t (perform call s) (perform call s) Twins.Same := by
  have hk := hs.kind
  have hw := hs.words
  have hkeys := hs.keys
  have hh := hs.hung
  cases s with
  | panic text =>
    exact Tracks.seq (Q := Twins.Any) (tracks_lift_any Engine.tracks_panic) fun _ _ => tracks_same _
  | note text => exact tracks_same _
  | dropStore s => exact tracks_dropStore (hw s (by simp [Step.words]))
  | storeInfo s => exact tracks_storeInfo (hw s (by simp [Step.words]))
  | storeDebug s =>
    exact tracks_inspect (hw s (by simp [Step.words])) fun _ n u' u hn hu => by
      rw [hu.inspectStore hn]
  | find s type name key =>
    exact tracks_find (hw s (by simp [Step.words])) type name fun k hk =>
      hw k (by simpa [Step.words] using .inr hk)
  | contains s id =>
    exact tracks_inspect (hw s (by simp [Step.words])) fun _ n u' u hn hu => by
      rw [(hu.stores hn).arena.contains]
  | stateOf s id =>
    exact tracks_inspect (hw s (by simp [Step.words])) fun _ n u' u hn hu => by
      unfold World.stateOf
      rw [(hu.stores hn).arena.contains]
  | onExecute s label run =>
    exact tracks_onExecute (hw s (by simp [Step.words])) label fun f hf =>
      hh f (Option.mem_toList.mpr hf)
  | execute s =>
    exact (tracks_execute follows _ (hw s (by simp [Step.words]))).same fun _ => tracks_same _
  | onExecuteIfTriggered s =>
    exact (tracks_execute follows _ (hw s (by simp [Step.words]))).same fun _ => tracks_same _
  | isTriggered s =>
    exact tracks_inspect (hw s (by simp [Step.words])) fun _ n u' u hn hu => by
      rw [(hu.stores hn).signal.triggered]
  | storeTrigger s => exact tracks_storeTrigger follows (hw s (by simp [Step.words]))
  | onTrigger s source sequence =>
    exact tracks_onTrigger (hw s (by simp [Step.words])) hkeys sequence
  | onAffinity s domain => exact tracks_setAffinity (hw s (by simp [Step.words])) _ domain
  | setAffinity s domain => exact tracks_setAffinity (hw s (by simp [Step.words])) _ domain
  | create s key name type argument convert plan =>
    exact tracks_create follows (hw s (by simp [Step.words])) (hw key (by simp [Step.words])) name
      type argument convert (fun n hn => hw n (by simp [Step.words, hn])) hh
  | destroy key store =>
    exact tracks_destroy (hkeys _ (by simp [Step.keys])) (hw _ (by simp [Step.words]))
  | write key store value =>
    exact tracks_write follows (hkeys _ (by simp [Step.keys])) (hw _ (by simp [Step.words])) value
  | read key store =>
    exact tracks_read follows (hkeys _ (by simp [Step.keys])) (hw _ (by simp [Step.words]))
  | readInto key store init =>
    exact tracks_readInto follows (hkeys _ (by simp [Step.keys])) (hw _ (by simp [Step.words]))
      init
  | itemInfo key store =>
    exact tracks_itemInfo (hkeys _ (by simp [Step.keys])) (hw _ (by simp [Step.words]))
  | itemDebug key store =>
    refine tracks_withItem (hkeys _ (by simp [Step.keys])) (hw _ (by simp [Step.words]))
      fun s k n i j _ hij => tracks_world_bind fun r u' u hr hu => ?_
    rw [hu.inspectItem (hr.1 hij)]
    exact tracks_same _
  | parallelWrite key store threads each =>
    exact tracks_parallelWrite follows (hkeys _ (by simp [Step.keys])) (hw _ (by simp [Step.words]))
      threads each
  | keyInfo key other => exact tracks_keyInfo hkeys
  | aspect id plan => exact tracks_newAspect (hw id (by simp [Step.words])) hh
  | chain name ls =>
    exact tracks_newChain (hw name List.mem_cons_self)
      (fun n hn => hw n (List.mem_cons_of_mem _ hn)) hh
  | _ => cases hk

/-- A step that keeps to the side is answered the same in both worlds. -/
theorem tracks_answer {s : Step} (hs : s.KeepsTo c) :
    Engine.Tracks c lone t (answer call s) (answer call s) Twins.Same := by
  refine Engine.Tracks.bind (tracks_perform follows hs) fun r x y _ hxy => ?_
  cases hxy with
  | ok h => exact Engine.tracks_pure fun _ _ => h
  | error e => exact Engine.tracks_pure fun _ _ => rfl

end Calls

end Performing

namespace Scenario

theorem tracks_scriptStep {call : Nat → Engine Unit} (follows : Engine.Follows c lone call)
    {s : Step} (hs : s.KeepsTo c) :
    Engine.Tracks c lone t (scriptStep call s) (scriptStep call s) Twins.Any := by
  unfold scriptStep
  split
  · exact Engine.tracks_panic
  · exact (Performing.tracks_answer follows hs).seq fun _ _ =>
      Engine.tracks_record (fun _ => rfl) fun _ => rfl

/-- Routines that stand for one another do the same, however deep scripts may run. -/
theorem callWithin_follows (depth : Nat) : Engine.Follows c lone (callWithin depth) := by
  induction depth with
  | zero =>
    intro t i j hij
    refine Engine.Tracks.bind (Engine.tracks_callRoutine hij) fun s steps' steps _ h => ?_
    rw [h.1]
    split
    · exact Engine.tracks_unit
    · exact Engine.tracks_record (fun _ => rfl) fun _ => rfl
  | succ depth ih =>
    intro t i j hij
    refine Engine.Tracks.bind (Engine.tracks_callRoutine hij) fun s steps' steps _ h => ?_
    rw [h.1]
    refine Engine.tracks_forM (A := fun a b => a = b ∧ b.KeepsTo c) ?_
      (List.forall₂_same.mpr fun x hx => ⟨rfl, h.2 x hx⟩)
    rintro a _ ⟨rfl, ha⟩
    exact tracks_scriptStep ih ha

end Scenario

end GuardedStore
