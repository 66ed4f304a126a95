import GuardedStore.Proofs.Estate.Steps
import GuardedStore.Proofs.Ledger.Writes
import GuardedStore.Proofs.Passes.Pairing

/-!
What a read makes sure of before it hands out a value.

A read goes through the chain in passes. Each takes what is in the cell and shows it to the aspects
in turn. A pass that all of them admit is the last one, unless a write was stored meanwhile and
fewer than eight passes were made; a pass that one of them refuses is the last one in any case. So a
read is a run of superseded passes, one after the other, and one pass that settles it. Nothing but a
panic and an aspect that waits for ever can keep it from its end.
-/
namespace GuardedStore

/-- A pass that a read made: the state that it took the value from, the one in which every aspect
had been asked or one had refused, and the one in which the pass was over. -/
structure ReadPass where
  pass : Pass
  start : World
  check : World
  finish : World

namespace ReadPass

variable (call : Nat → Engine Unit) (item : Nat)

/-- The pass took what was in the cell of the item and showed the aspects of the chain just that, in
order and up to the first refusal. -/
structure Shown (p : ReadPass) : Prop where
  entered : Engine.enter call (p.start.item item).chain .read
    { descriptor := (p.start.item item).descriptor, value := (p.start.item item).value } p.start =
      (.done p.pass, p.check)
  inCell : InCell item p.start.history p.pass.access.value
  began : .began (p.start.item item).chain .read p.pass.access :: p.start.history <:+
    p.check.history
  calls : hookCalls p.pass.access.ticket p.check.history =
    asking .read p.pass.access p.pass.entered.reverse p.pass.refusedBy
  inOrder : p.pass.entered.reverse ++ p.pass.refusedBy.toList <+: (p.start.item item).chain
  whole : p.pass.refusedBy = none → p.pass.entered.reverse = (p.start.item item).chain

/-- No write of the item was stored between taking the value and the check. -/
def Current (p : ReadPass) : Prop :=
  storedIn item p.check.history = storedIn item p.start.history

/-- The state in which the `n`-th pass is left when the read is to begin again. -/
def overtaken (n : Nat) (p : ReadPass) : World :=
  (p.check.mark (.notice (.readSuperseded (p.start.item item).descriptor n))).mark
    (.concluded item p.pass.access .superseded)

/-- All aspects admitted the `n`-th pass, but a write was stored meanwhile. -/
structure Superseded (n : Nat) (p : ReadPass) : Prop where
  shown : p.Shown call item
  admitted : p.pass.refusedBy = none
  stale : ¬ p.Current item
  left : Engine.leave call p.pass (p.overtaken item n) = (.done (), p.finish)

/-- Passes lead from one state to another, each of which was superseded and at once followed by the
next; the first of them is the `n`-th of its read. -/
def Restarts : (n : Nat) → World → List ReadPass → World → Prop
  | _, w, [], w' => w = w'
  | n, w, p :: ps, w' => p.start = w ∧ p.Superseded call item n ∧ Restarts (n + 1) p.finish ps w'

/-- What the last pass of a read comes to, which is the `n`-th one and begins in `w`. -/
inductive Settles (n : Nat) (w : World) : Outcome (Except Fault Value) → World → Prop where
  /-- The read hands out what all aspects of the chain were shown and admitted. -/
  | returned {p : ReadPass} (start : p.start = w) (shown : p.Shown call item)
      (admitted : p.pass.refusedBy = none) (current : p.Current item ∨ n = Engine.readAttempts)
      (left : Engine.leave call p.pass p.check = (.done (), p.finish)) :
      Settles n w (.done (.ok p.pass.access.value))
        (p.finish.mark (.concluded item p.pass.access (.returned n)))
  /-- An aspect refuses the pass, and the fault names it. -/
  | refused {p : ReadPass} {x : Nat} {fault : Fault} (start : p.start = w)
      (shown : p.Shown call item) (refused : p.pass.refusedBy = some x)
      (code : fault.code = .framework .runtime .corrupt)
      (named : fault = Engine.refusal (p.start.item item).descriptor (p.check.aspect x).name)
      (left : Engine.leave call p.pass p.check = (.done (), p.finish)) :
      Settles n w (.done (.error fault))
        ((p.finish.mark (.notice (.readRefused (p.start.item item).descriptor
          (p.check.aspect x).name))).mark (.concluded item p.pass.access .refused))
  /-- An aspect waits for ever when it is asked. -/
  | asking {v : World} (waits : Engine.enter call (w.item item).chain .read
      { descriptor := (w.item item).descriptor, value := (w.item item).value } w = (.stuck, v)) :
      Settles n w .stuck v
  /-- An aspect waits for ever when it is told that the pass is over. -/
  | telling {p : ReadPass} {u v : World} (start : p.start = w) (shown : p.Shown call item)
      (checked : u = p.check ∨ u = p.overtaken item n)
      (waits : Engine.leave call p.pass u = (.stuck, v)) : Settles n w .stuck v
  | panicked {text : String} {newer : List Happening} {v : World}
      (grown : v.history = newer ++ w.history) (raised : Panicked newer) :
      Settles n w (.panicked text) v

variable {call item}

theorem Restarts.cons {n : Nat} {p : ReadPass} {ps : List ReadPass} {w : World}
    (first : p.Superseded call item n) (rest : Restarts call item (n + 1) p.finish ps w) :
    Restarts call item n p.start (p :: ps) w :=
  ⟨rfl, first, rest⟩

end ReadPass

namespace World

/-- Whether the count of writes is the same tells whether a write was stored. -/
theorem writes_eq_iff {w v : World} {i : Nat} (start : w.InStep) (finish : v.InStep)
    (grown : w.Grows v) (made : i < w.items.next) :
    (v.item i).writes = (w.item i).writes ↔ storedIn i v.history = storedIn i w.history := by
  have before := (start.tallies made).stored
  have after := (finish.tallies (Nat.lt_of_lt_of_le made grown.items)).stored
  constructor
  · intro same
    have earlier := storedIn_earlier grown.history i
    refine (earlier.eq_of_length ?_).symm
    rw [before, after, same]
  · intro same
    rw [← after, same, before]

end World

namespace Engine

open ReadPass

/-- What does not end in a panic has come through its first part, or waits there for ever. -/
theorem calm_bind {α β : Type} {m : Engine α} {f : α → Engine β} {o : Outcome β} {w v : World}
    (h : (m >>= f) w = (o, v)) (calm : o.ending ≠ .panicked) :
    (∃ a u, m w = (.done a, u) ∧ f a u = (o, v)) ∨ m w = (.stuck, v) ∧ o = .stuck := by
  rw [bind_apply] at h
  rcases hm : m w with ⟨a | text | _, u⟩ <;> rw [hm] at h
  · exact .inl ⟨a, u, rfl, h⟩
  · cases h
    exact absurd rfl calm
  · cases h
    exact .inr ⟨rfl, rfl⟩

variable {call : Nat → Engine Unit} {item : Nat}

section Passes

variable (orders : ∀ r, (call r).Keeps (passes 0)) (tallies : ∀ r, (call r).Keeps ledger)

include orders tallies

omit orders in
theorem began_earlier {chain : List Nat} {phase : Phase} {access : Access} {p : Pass}
    {w u : World} (inStep : w.InStep) (entered : enter call chain phase access w = (.done p, u)) :
    .began chain phase p.access :: w.history <:+ u.history := by
  have begun := (((newTicket_keeps ledger_plain).bind fun t => mark_keeps ledger_plain
    (h := .began chain phase { access with ticket := t }) rfl) w).holds inStep rfl
  rw [access_of_proceed entered]
  exact ((proceed_keeps ledger_plain tallies chain _ _).holds begun.1 entered).2.history

/-- A pass that was entered has shown the aspects what was in the cell. -/
theorem shown_of_enter {w u : World} {p : Pass} (orderly : w.Orderly) (inStep : w.InStep)
    (made : item < w.items.next)
    (entered : enter call (w.item item).chain .read
      { descriptor := (w.item item).descriptor, value := (w.item item).value } w = (.done p, u))
    (z : World) : Shown call item ⟨p, w, u, z⟩ := by
  obtain ⟨r, rfl, ready⟩ :=
    (enter_spec orders orderly (fun _ => orderly.sound.chains) entered).2.1 p rfl
  have chain : r.chain = (w.item item).chain := ready.chain
  have phase : r.phase = .read := ready.phase
  have value : r.access.value = (w.item item).value := by rw [ready.access]
  obtain ⟨first, found⟩ := (inStep.tallies made).made
  constructor
  · exact entered
  · exact ⟨first, found, value.trans ((inStep.tallies made).cell first found)⟩
  · exact began_earlier tallies inStep entered
  · have calls := ready.taking.shows.hookCalls
    rw [ready.waiting.told, phase] at calls
    exact calls.trans (List.append_nil _)
  · exact chain ▸ ready.taking.shows.lawful.asked
  · intro unrefused
    exact (ready.whole unrefused).trans chain

omit tallies in
/-- Wherever a superseded pass leaves, all is in order there. -/
theorem orderly_of_superseded {n : Nat} {p : ReadPass} (orderly : p.start.Orderly)
    (entered : enter call (p.start.item item).chain .read
      { descriptor := (p.start.item item).descriptor, value := (p.start.item item).value } p.start =
        (.done p.pass, p.check))
    (left : leave call p.pass (p.overtaken item n) = (.done (), p.finish)) : p.finish.Orderly := by
  let restart (q : Pass) : Engine Unit :=
    notice (.readSuperseded (p.start.item item).descriptor n) >>= fun _ =>
      record (.concluded item q.access .superseded) >>= fun _ => leave call q
  have kept : (enter call (p.start.item item).chain .read
      { descriptor := (p.start.item item).descriptor, value := (p.start.item item).value } >>=
        restart).KeepsAt (passes 0) p.start := by
    apply entering_keepsAt orders (fun _ => orderly.sound.chains)
    intro r u ready
    have first := (World.beside_mark
      (y := .notice (.readSuperseded (p.start.item item).descriptor n)) rfl
      ready.taking.orderly.sound).holds 0 ready.taking.orderly
    have taking := ready.taking.frame first
    have second := (World.beside_mark (y := .concluded item r.access .superseded) rfl
      taking.orderly.sound).holds 0 taking.orderly
    apply closes_record_bind ready.taking.orderly rfl
    apply closes_record_bind taking.orderly rfl
    exact leave_closes orders (taking.frame second) ready.waiting.left ready.waiting.told
      ready.whole
  have ended : (enter call (p.start.item item).chain .read
      { descriptor := (p.start.item item).descriptor, value := (p.start.item item).value } >>=
        restart) p.start = (.done (), p.finish) := by
    rw [bind_of_done entered]
    exact left
  exact (kept.holds orderly ended).1

omit orders in
theorem inStep_of_superseded {n : Nat} {p : ReadPass} (inStep : p.start.InStep)
    (entered : enter call (p.start.item item).chain .read
      { descriptor := (p.start.item item).descriptor, value := (p.start.item item).value } p.start =
        (.done p.pass, p.check))
    (left : leave call p.pass (p.overtaken item n) = (.done (), p.finish)) :
    p.finish.InStep ∧ p.start.Grows p.finish := by
  have checked := (enter_keeps ledger_plain tallies _ _ _ _).holds inStep entered
  have marked : ledger.Holds p.check .done (p.overtaken item n) :=
    ((mark_keeps ledger_plain rfl).bind fun _ => mark_keeps ledger_plain rfl)
      p.check |>.holds (m := notice _ >>= fun _ => record _) checked.1 rfl
  have ended := (leave_keeps ledger_plain tallies _ _).holds marked.1 left
  exact ⟨ended.1, (checked.2.trans marked.2).trans ended.2⟩

omit orders tallies in
/-- A refused pass settles the read. -/
theorem settles_of_refused {n x : Nat} {p : Pass} {w u v : World}
    {o : Outcome (Except Fault Value)} (shown : ∀ z, Shown call item ⟨p, w, u, z⟩)
    (refused : p.refusedBy = some x) (calm : o.ending ≠ .panicked)
    (h : (leave call p >>= fun _ =>
      notice (.readRefused (w.item item).descriptor (u.aspect x).name) >>= fun _ =>
        record (.concluded item p.access .refused) >>= fun _ =>
          pure (.error (refusal (w.item item).descriptor (u.aspect x).name))) u = (o, v)) :
    Settles call item n w o v := by
  rcases calm_bind h calm with ⟨_, z, left, h⟩ | ⟨waits, rfl⟩
  · cases h
    exact .refused (p := ⟨p, w, u, z⟩) rfl (shown z) refused rfl rfl left
  · exact .telling (p := ⟨p, w, u, u⟩) rfl (shown u) (.inl rfl) waits

omit orders tallies in
/-- So does one that everyone admitted, if no write was stored or no pass is left to make. -/
theorem settles_of_returned {n : Nat} {p : Pass} {w u v : World}
    {o : Outcome (Except Fault Value)} (shown : ∀ z, Shown call item ⟨p, w, u, z⟩)
    (admitted : p.refusedBy = none) (calm : o.ending ≠ .panicked)
    (current : Current item ⟨p, w, u, u⟩ ∨ n = readAttempts)
    (h : (leave call p >>= fun _ => record (.concluded item p.access (.returned n)) >>= fun _ =>
      pure (.ok (w.item item).value)) u = (o, v)) : Settles call item n w o v := by
  rcases calm_bind h calm with ⟨_, z, left, h⟩ | ⟨waits, rfl⟩
  · cases h
    have value : p.access.value = (w.item item).value := value_of_enter (shown z).entered
    rw [← value]
    exact .returned (p := ⟨p, w, u, z⟩) rfl (shown z) admitted current left
  · exact .telling (p := ⟨p, w, u, u⟩) rfl (shown u) (.inl rfl) waits

/-- A read is a run of superseded passes and one that settles it. -/
theorem readWithin_settles (retries : Nat) : ∀ {n : Nat} {w v : World}
    {o : Outcome (Except Fault Value)}, n + retries = readAttempts → w.Orderly → w.InStep →
    item < w.items.next → readWithin call item retries w = (o, v) →
      ∃ superseded z, superseded.length ≤ retries ∧ Restarts call item n w superseded z ∧
        Settles call item (n + superseded.length) z o v := by
  induction retries using Nat.strongRecOn with
  | ind retries ih =>
    intro n w v o count orderly inStep made h
    suffices Settles call item n w o v ∨ ∃ (k : Nat) (p : ReadPass), retries = k + 1 ∧ p.start = w ∧
        p.Superseded call item n ∧ readWithin call item k p.finish = (o, v) by
      rcases this with settles | ⟨k, p, rfl, rfl, superseded, rest⟩
      · exact ⟨[], w, Nat.zero_le _, rfl, settles⟩
      · have orderly' := orderly_of_superseded orders orderly superseded.shown.entered
          superseded.left
        obtain ⟨inStep', grown⟩ := inStep_of_superseded tallies inStep superseded.shown.entered
          superseded.left
        obtain ⟨ps, z, few, restarts, settles⟩ := ih k (Nat.lt_succ_self k) (n := n + 1) (by omega)
          orderly' inStep' (Nat.lt_of_lt_of_le made grown.items) rest
        refine ⟨p :: ps, z, Nat.succ_le_succ few, .cons superseded restarts, ?_⟩
        rwa [List.length_cons, ← Nat.add_assoc, Nat.add_right_comm]
    have kept := (readWithin_passes orders item retries w).holds orderly h
    by_cases calm : o.ending = .panicked
    · obtain ⟨newer, message, grown, raised⟩ := kept.2.raised calm
      cases o with
      | panicked text => exact .inl (.panicked grown ⟨message, raised⟩)
      | _ => cases calm
    unfold readWithin at h
    rcases calm_bind (m := enter call _ _ _) (w := w) h calm with ⟨p, u, entered, h⟩ | ⟨waits, rfl⟩
    · have shown := shown_of_enter orders tallies orderly inStep made entered
      have checked := (enter_keeps ledger_plain tallies _ _ _ _).holds inStep entered
      obtain ⟨_, _, ⟨⟩, h⟩ := (calm_bind (m := get) h calm).resolve_right (by rintro ⟨⟨⟩, -⟩)
      cases refused : p.refusedBy with
      | some x =>
        rw [World.vetoedBy, refused] at h
        exact .inl (settles_of_refused shown refused calm h)
      | none =>
        rw [World.vetoedBy, refused] at h
        have written := World.writes_eq_iff inStep checked.1 checked.2 made
        cases retries with
        | zero =>
          obtain rfl : n = readAttempts := count
          exact .inl (settles_of_returned shown refused calm (.inr rfl) h)
        | succ k =>
          have number : readAttempts - (k + 1) = n := by omega
          dsimp only at h
          rw [number] at h
          by_cases same : (u.item item).writes = (w.item item).writes
          · rw [if_neg (not_not_intro same)] at h
            exact .inl (settles_of_returned shown refused calm (.inl (written.mp same)) h)
          · rw [if_pos same] at h
            -- the two marks that say so are made at once
            rcases calm_bind (m := leave call p) (w := overtaken item n ⟨p, w, u, u⟩) h calm with
              ⟨_, z, left, rest⟩ | ⟨waits, rfl⟩
            · have superseded : Superseded call item n ⟨p, w, u, z⟩ :=
                ⟨shown z, refused, mt written.mpr same, left⟩
              exact .inr ⟨k, _, rfl, rfl, superseded, rest⟩
            · exact .inl (.telling (p := ⟨p, w, u, u⟩) rfl (shown u) (.inr rfl) waits)
    · exact .inl (.asking waits)

end Passes

theorem ensure_congr {α : Type} {m m' : Engine α} {c : Engine Unit} {w : World} (h : m w = m' w) :
    ensure m c w = ensure m' c w := by
  unfold ensure
  rw [h]

theorem endSharing_done (s : Nat) (w : World) :
    endSharing s w = (.done (), (endSharing s w).2) := by
  unfold endSharing
  rw [bind_of_done (m := modify _) rfl, dropIfIdle_apply]

end Engine

namespace World

/-- A step on what a key stands for finds it to be the item `i` of the store `s`. -/
structure Reaches (w : World) (key : String) (store : Option String) (k : NamedKey) (s i : Nat) :
    Prop where
  key : w.names.keys.find? key = some k
  store : w.names.stores.find? (store.getD k.storeName) = some s
  shareable : (w.store s).owned = false
  located : w.locate s k.key = .ok i

theorem locate_share (s : Nat) (key : Key) (w : World) :
    (w.share s).locate s key = w.locate s key := by
  have shared : (w.share s).store s = { w.store s with sharers := (w.store s).sharers + 1 } := by
    rw [share, store_modifyStore, if_pos rfl]
  unfold locate
  rw [shared]
  rfl

end World

namespace Performing

variable {call : Nat → Engine Unit} {key : String} {store : Option String} {k : NamedKey}
  {s i : Nat} {w u : World}

/-- The step does its work on the item with the store shared. -/
theorem withItem_run {α : Type} {m : NamedKey → Nat → Nat → Performing α}
    (reaches : w.Reaches key store k s i) : (withItem key store m).run w =
      Engine.ensure (m k s i).run (Engine.endSharing s) (w.share s) := by
  have located : (w.share s).locate s k.key = .ok i := by rw [World.locate_share, reaches.located]
  calc (withItem key store m).run w
    _ = _ := run_bind_ok (m := keyNamed key) (named_run reaches.key)
    _ = _ := run_bind_ok (m := presentedTo k store) (named_run reaches.store)
    _ = _ := run_bind_ok (m := checkShareable s) (checkShareable_run reaches.shareable)
    _ = _ := run_bind_ok (m := update (World.share s)) (v := w.share s) rfl
    _ = Engine.ensure (m k s i).run (Engine.endSharing s) (w.share s) :=
      Engine.ensure_congr (by rw [run_bind_ok (m := world) rfl, located])

/-- The step answers as its work does, and then the store is shared no longer. -/
theorem answer_withItem {step : Step} {m : NamedKey → Nat → Nat → Performing Answer}
    {r : Except Answer Answer} (reaches : w.Reaches key store k s i)
    (performed : perform call step = withItem key store m)
    (done : (m k s i).run (w.share s) = (.done r, u)) :
    answer call step w = (.done (match r with | .ok a => a | .error a => a),
      (Engine.endSharing s u).2) := by
  have work : (perform call step).run w = (.done r, (Engine.endSharing s u).2) := by
    rw [performed, withItem_run reaches, Engine.ensure, done]
    exact Engine.bind_of_done (f := fun _ => pure r) (Engine.endSharing_done s u)
  unfold answer
  rw [Engine.bind_of_done work]
  cases r <;> rfl

theorem run_lift_bind_done {α β : Type} {m : Engine α} {f : α → Performing β} {a : α} {v : World}
    (done : m v = (.done a, u)) : (liftM m >>= f : Performing β).run v = (f a).run u := by
  rw [run_lift_bind, Engine.bind_of_done done]

/-- The answer to a step that reads. -/
def given : Except Fault Value → Answer
  | .ok value => .value value
  | .error fault => .fault fault

/-- The answer to a step that reads into a place: the fault, if there was one, and what the place
holds then, which is `init` as long as nothing was put there. -/
def put (init : Value) : Except Fault Value → Answer
  | .ok value => .readInto none value
  | .error fault => .readInto (some fault) init

theorem answer_read {r : Except Fault Value} (reaches : w.Reaches key store k s i)
    (done : Engine.read call i (w.share s) = (.done r, u)) :
    answer call (.read key store) w =
      (.done (given r), (Engine.endSharing s u).2) := by
  have fetched : (orFault (Engine.read call i)).run (w.share s) =
      (.done (r.mapError .fault), u) := by
    unfold orFault
    rw [run_lift_bind_done done]
    cases r <;> rfl
  cases r with
  | ok value =>
    apply answer_withItem reaches rfl (r := .ok (.value value))
    rw [run_bind_ok fetched]
    rfl
  | error fault =>
    apply answer_withItem reaches rfl (r := .error (.fault fault))
    rw [run_bind_error fetched]

theorem answer_readInto {r : Except Fault Value} {init : Literal} {x : Value}
    (reaches : w.Reaches key store k s i) (readable : init.value? k.key.type = some x)
    (done : Engine.read call i (w.share s) = (.done r, u)) :
    answer call (.readInto key store init) w = (.done (put x r), (Engine.endSharing s u).2) := by
  have known : (orUnreadable (init.value? k.key.type)).run (w.share s) =
      (.done (.ok x), w.share s) := by
    rw [readable]
    rfl
  cases r with
  | ok value =>
    apply answer_withItem reaches rfl (r := .ok (.readInto none value))
    rw [run_bind_ok known, run_lift_bind_done done]
    rfl
  | error fault =>
    apply answer_withItem reaches rfl (r := .ok (.readInto (some fault) x))
    rw [run_bind_ok known, run_lift_bind_done done]
    rfl

end Performing

namespace Scenario

open ReadPass

/-- A read makes up to eight passes through the chain of its item, of which all but the last were
superseded by a write that was stored meanwhile, and then comes to its end, unless an aspect waits
for ever or panics. A value that it hands out is the one that all aspects of the chain were shown
and admitted in the last pass. No write was stored during that pass, unless it is the eighth. When
an aspect refuses a pass the read makes no other, and gives the fault that names the aspect; a place
that was to be read into is left as it was. -/
theorem reads_as_admitted (halt halt' : World → Bool) (depth depth' : Nat) (steps : List Step) :
    ∀ w, reached halt depth {} steps = w → ∀ key store k s i, w.Reaches key store k s i →
      ∀ o v, Engine.read (callUntil halt' depth') i (w.share s) = (o, v) →
        (∃ superseded z, superseded.length < Engine.readAttempts ∧
          Restarts (callUntil halt' depth') i 1 (w.share s) superseded z ∧
          Settles (callUntil halt' depth') i (superseded.length + 1) z o v) ∧
        ∀ r, o = .done r →
          Performing.answer (callUntil halt' depth') (.read key store) w =
            (.done (Performing.given r), (Engine.endSharing s v).2) ∧
          ∀ init x, init.value? k.key.type = some x →
            Performing.answer (callUntil halt' depth') (.readInto key store init) w =
              (.done (Performing.put x r), (Engine.endSharing s v).2) := by
  rintro w rfl key store k s i reaches o v h
  constructor
  · have orders := callUntil_keeps (fun _ kept => passes_admits kept) halt' depth'
    have tallies := callUntil_keeps (fun _ kept => ledger_admits kept) halt' depth'
    have quiet := World.quiet_share s (reached halt depth {} steps)
    have orderly := (passes_calm.quiet quiet (reached_orderly halt depth steps)).1
    have inStep := (ledger_calm.quiet quiet (reached_inStep halt depth steps)).1
    have made := ((reached_orderly halt depth steps).sound.arenas
      (World.mem_arena_of_locate reaches.located)).1
    obtain ⟨superseded, z, few, restarts, settles⟩ := Engine.readWithin_settles orders tallies
      (Engine.readAttempts - 1) (n := 1) rfl orderly inStep made h
    rw [Nat.add_comm] at settles
    exact ⟨superseded, z, Nat.lt_succ_of_le few, restarts, settles⟩
  · rintro r rfl
    exact ⟨Performing.answer_read reaches h, fun init x readable =>
      Performing.answer_readInto reaches readable h⟩

/-- An item that holds 0, with a probe that writes 0 again when it is asked of a read for the first
time, and behind it one that admits a read once and no more. -/
def rewritten : List Step :=
  [.store "s" .standard,
    .create "s" "k" "n" .int64 (.int 0) none (.custom false false (.links [
      .fresh (.probe {
        name := "p"
        script := fun h => if h = .beforeRead then
          some (Script.window 0 (some 1) [.write "k" none (.int 0)]) else none }),
      .fresh (.probe { name := "q", reads := [true, false] })]))]

/-- The item of `rewritten`. -/
def rewrittenItem : Descriptor where
  store := .drawn 0
  id := ⟨0, 0⟩
  name := "n"
  type := .int64

/-- A write of an equal value makes the read begin again. The second pass is refused, so the place
read into still holds 5. -/
theorem rewritten_refused :
    let call := callUntil (fun _ => false) maxDepth
    let w := reached (fun _ => false) maxDepth {} rewritten
    let fault := Engine.refusal rewrittenItem "q"
    ∃ superseded z v, superseded.length < Engine.readAttempts ∧
      Restarts call 0 1 (w.share 0) superseded z ∧
      Settles call 0 (superseded.length + 1) z (.done (.error fault)) v ∧
      .concluded 0 ⟨rewrittenItem, .int64 0, 2⟩ .superseded ∈ v.history ∧
      Performing.answer call (.readInto "k" none (.int 5)) w =
        (.done (.readInto (some fault) (.int64 5)), (Engine.endSharing 0 v).2) := by
  have reaches : (reached (fun _ => false) maxDepth {} rewritten).Reaches "k" none
      ⟨"s", ⟨.drawn 0, ⟨0, 0⟩, .int64⟩⟩ 0 0 := by
    constructor <;> decide +kernel
  have read : Engine.read (callUntil (fun _ => false) maxDepth) 0
      ((reached (fun _ => false) maxDepth {} rewritten).share 0) =
        (.done (.error (Engine.refusal rewrittenItem "q")), _) :=
    Prod.ext (by decide +kernel) rfl
  obtain ⟨⟨superseded, z, few, restarts, settles⟩, answers⟩ := reads_as_admitted (fun _ => false)
    (fun _ => false) maxDepth maxDepth rewritten _ rfl "k" none _ 0 0 reaches _ _ read
  exact ⟨superseded, z, _, few, restarts, settles, by decide +kernel,
    (answers _ rfl).2 (.int 5) (.int64 5) rfl⟩

end Scenario

end GuardedStore
