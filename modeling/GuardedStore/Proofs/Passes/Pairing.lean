import GuardedStore.Proofs.Passes.Locks

/-!
How the hook calls of a pass pair up.

A pass asks the aspects of its chain in order, up to the first refusal, and when it is over it tells
those that admitted it so, last one first. Passes nest in one another and are scattered over the
history, yet the calls under one ticket read as if the pass had been alone. Only a panic cuts them
short.
-/
namespace GuardedStore

/-- A call of a hook of an aspect, with what the aspect answered or the decision it was told. -/
structure HookCall where
  aspect : Nat
  hook : Hook
  access : Access
  verdict : Bool
  deriving DecidableEq

def Happening.hookCall? : Happening → Option HookCall
  | .admitted x phase a b => some ⟨x, .before phase, a, b⟩
  | .told x phase a b => some ⟨x, .after phase, a, b⟩
  | _ => none

/-- The hook calls under a ticket, first one first. -/
def hookCalls (ticket : Nat) (history : List Happening) : List HookCall :=
  (history.filterMap Happening.hookCall?).reverse.filter fun c => c.access.ticket = ticket

/-- The aspects that admitted an access are asked, and then the one that refused it, if one did. -/
def asking (phase : Phase) (a : Access) (admitted : List Nat) (refusedBy : Option Nat) :
    List HookCall :=
  admitted.map (⟨·, .before phase, a, true⟩) ++
    refusedBy.toList.map (⟨·, .before phase, a, false⟩)

/-- Aspects are told that an access is over. -/
def telling (phase : Phase) (a : Access) (permitted : Bool) (aspects : List Nat) :
    List HookCall :=
  aspects.map (⟨·, .after phase, a, permitted⟩)

theorem hookCalls_eq (t : Nat) (h : List Happening) :
    hookCalls t h = ((ofTicket t h).filterMap Happening.hookCall?).reverse := by
  unfold hookCalls ofTicket
  rw [List.filter_reverse, List.filter_filterMap, List.filterMap_filter]
  congr 2
  funext x
  cases x <;>
    simp [Happening.hookCall?, Happening.ticket?, Option.filter]

namespace PassRecord

variable (r : PassRecord)

theorem filterMap_happenings : (r.happenings.filterMap Happening.hookCall?).reverse =
    asking r.phase r.access r.entered.reverse r.refusedBy ++
      telling r.phase r.access r.permitted r.told := by
  have hl : (r.left.toList.map (.left r.access)).filterMap Happening.hookCall? = [] := by
    cases r.left <;> rfl
  have hab : (if r.abandoned then [Happening.abandoned r.entered r.phase r.access]
      else []).filterMap Happening.hookCall? = [] := by
    cases r.abandoned <;> rfl
  have hs : (r.stored.toList.map (.stored · r.access)).filterMap Happening.hookCall? = [] := by
    cases r.stored <;> rfl
  have ht (b : Bool) (xs : List Nat) : (xs.map (.told · r.phase r.access b)).filterMap
      Happening.hookCall? = telling r.phase r.access b xs := by
    induction xs <;> simp_all [telling, Happening.hookCall?]
  have ha (b : Bool) (xs : List Nat) : (xs.map (.admitted · r.phase r.access b)).filterMap
      Happening.hookCall? = xs.map (⟨·, .before r.phase, r.access, b⟩) := by
    induction xs <;> simp_all [Happening.hookCall?]
  have hb : [Happening.began r.chain r.phase r.access].filterMap Happening.hookCall? = [] := rfl
  simp only [happenings, List.filterMap_append, hl, hab, hs, ht, ha, hb, asking, telling]
  cases r.refusedBy <;> simp

end PassRecord

namespace World

variable {w : World} {r : PassRecord}

theorem Shows.hookCalls (hr : w.Shows r) : hookCalls r.access.ticket w.history =
    asking r.phase r.access r.entered.reverse r.refusedBy ++
      telling r.phase r.access r.permitted r.told := by
  rw [hookCalls_eq, hr.record, r.filterMap_happenings]

/-- The calls of the pass that began with `access` are those of asking along the chain and then,
from its end on, those of telling whoever admitted it. -/
structure Pairs (w : World) (chain : List Nat) (phase : Phase) (access : Access)
    (admitted : List Nat) (refusedBy : Option Nat) (told : List Nat) : Prop where
  calls : GuardedStore.hookCalls access.ticket w.history =
    asking phase access admitted refusedBy ++ telling phase access refusedBy.isNone told
  inOrder : admitted ++ refusedBy.toList <+: chain
  inReverse : told <+: admitted.reverse
  /-- The pass does not end before everyone was asked. -/
  whole : told ≠ [] ∨ w.Over access.ticket → refusedBy = none → admitted = chain
  /-- The pass is not over before everyone was told. -/
  ended : w.Over access.ticket → told = admitted.reverse

/-- What a pass says of itself is what its hook calls so far come to: it is permitted if none of
them refused it, and vetoed by the first that did. -/
structure Decided (w : World) (p : Pass) : Prop where
  permitted : p.permitted = (hookCalls p.access.ticket w.history).all (·.verdict)
  vetoedBy : w.vetoedBy p =
    ((hookCalls p.access.ticket w.history).find? (!·.verdict)).map fun c =>
      (w.aspect c.aspect).name

theorem Shows.over_iff (hr : w.Shows r) : w.Over r.access.ticket ↔ r.left ≠ none := by
  constructor
  · rintro ⟨a, c, ht, hm⟩
    have hm' := (hr.mem (by rw [Happening.ticket?, ht])).mp hm
    rw [(PassRecord.left_mem.mp hm').1]
    simp
  · intro hl
    obtain ⟨c, hc⟩ := Option.ne_none_iff_exists'.mp hl
    exact ⟨r.access, c, rfl, (hr.mem rfl).mpr (PassRecord.left_mem.mpr ⟨hc, rfl⟩)⟩

theorem Shows.pairs (hw : w.Orderly) (hr : w.Shows r) (hp : ¬ Panicked w.history) :
    w.Pairs r.chain r.phase r.access r.entered.reverse r.refusedBy r.told where
  calls := hr.hookCalls
  inOrder := hr.lawful.asked
  inReverse := by simpa using hr.lawful.told
  whole he := by
    rw [hr.over_iff] at he
    exact (hr.whole he).resolve_right fun ha => hp (hr.panicked ha)
  ended ho := by
    obtain ⟨c, hc⟩ := Option.ne_none_iff_exists'.mp (hr.over_iff.mp ho)
    cases c with
    | true => simpa using hr.lawful.complete hc
    | false =>
      -- nobody is left untold without a panic
      have hm : .left r.access false ∈ w.history :=
        (hr.mem rfl).mpr (PassRecord.left_mem.mpr ⟨hc, rfl⟩)
      obtain ⟨newer, older, hh⟩ := List.append_of_mem hm
      obtain ⟨later, x, phase, b, text, earlier, rfl, ht⟩ := hw.excused newer _ older hh
      exact absurd ⟨text, by simp [hh, ht]⟩ hp

/-- A pass that nobody was told of yet. -/
theorem Shows.decided (hr : w.Shows r) (ht : r.told = []) : w.Decided r.pass := by
  have hc : GuardedStore.hookCalls r.pass.access.ticket w.history =
      asking r.phase r.access r.entered.reverse r.refusedBy := by
    rw [show r.pass.access = r.access from rfl, hr.hookCalls, ht]
    simp [telling]
  have hf (xs : List Nat) : (xs.map (HookCall.mk · (.before r.phase) r.access true)).find?
      (!·.verdict) = none := by
    simp
  constructor <;> rw [hc, asking]
  · cases hn : r.refusedBy <;> simp [PassRecord.pass, Pass.permitted, hn]
  · rw [List.find?_append, hf]
    cases hn : r.refusedBy <;> simp [PassRecord.pass, World.vetoedBy, hn]

end World

namespace Scenario

/-- Passes are numbered in the order in which they begin, and the hook calls of each pair up, in
every run without a panic: at every moment, also in the middle of a hook; and between steps, where
all passes are over but those held open under a name. What entering a chain gives is decided as the
hook calls say. -/
theorem hooks_pair_up (depth : Nat) (steps : List Step) :
    (∀ halt w, reached halt depth {} steps = w → ¬ Panicked w.history →
      begunTickets w.history = (List.range' 1 w.tickets).reverse ∧
      ∀ chain phase a, .began chain phase a ∈ w.history →
        ∃ admitted refusedBy told, w.Pairs chain phase a admitted refusedBy told) ∧
    (∀ w, settled depth {} steps = some w → ¬ Panicked w.history →
      ∀ chain phase a, .began chain phase a ∈ w.history →
        ∃ admitted refusedBy,
          w.Over a.ticket ∧ w.Pairs chain phase a admitted refusedBy admitted.reverse ∨
          w.Pairs chain phase a admitted refusedBy [] ∧ (refusedBy = none → admitted = chain) ∧
            ∃ name p, w.names.passages.find? name = some p ∧ p.access = a ∧ w.Decided p) ∧
    ∀ halt w, reached halt depth {} steps = w → ∀ halt' depth' chain phase access p w',
      (∀ x ∈ chain, x < w.aspects.next) →
      Engine.enter (callUntil halt' depth') chain phase access w = (.done p, w') →
        p.access = { access with ticket := w.tickets + 1 } ∧
        .began chain phase p.access ∈ w'.history ∧ w'.Decided p ∧
        ∃ admitted refusedBy, admitted ++ refusedBy.toList <+: chain ∧
          (refusedBy = none → admitted = chain) ∧
          hookCalls p.access.ticket w'.history = asking phase p.access admitted refusedBy := by
  refine ⟨?_, ?_, ?_⟩
  · rintro halt w rfl hp
    have hw := reached_orderly halt depth steps
    refine ⟨hw.begun, fun chain phase a hb => ?_⟩
    obtain ⟨r, hr, rfl, rfl, rfl⟩ := hw.shown_began hb
    exact ⟨_, _, _, hr.pairs hw hp⟩
  · intro w hs hp chain phase a hb
    have hw : w.Orderly := reached_of_settled hs ▸ reached_orderly (fun _ => false) depth steps
    have h1 := hw.pos_of_began hb
    have ht : a.ticket ≤ w.tickets := by
      obtain ⟨r, hr, -, -, rfl⟩ := hw.shown_began hb
      exact hr.begun
    rcases settled_passes hs h1 ht with ⟨name, p, hn, ht⟩ | ho
    · obtain ⟨r, hr, rfl, htold, -, hwh⟩ := hw.waiting hn
      obtain ⟨rfl, rfl, rfl⟩ := PassRecord.began_mem.mp
        ((hr.mem (y := .began chain phase a) (congrArg some ht.symm)).mp hb)
      exact ⟨_, _, .inr ⟨htold ▸ hr.pairs hw hp, hwh, name, _, hn, rfl, hr.decided htold⟩⟩
    · obtain ⟨r, hr, rfl, rfl, rfl⟩ := hw.shown_began hb
      have hpairs := hr.pairs hw hp
      exact ⟨_, _, .inl ⟨ho, hpairs.ended ho ▸ hpairs⟩⟩
  · rintro halt w rfl halt' depth' chain phase access p w' hch he
    have hc := callUntil_keeps (fun _ hc => passes_admits hc) halt' depth'
    obtain ⟨hk, hd, -⟩ := Engine.enter_spec hc (reached_orderly halt depth steps) hch he
    obtain ⟨r, rfl, hr⟩ := hd p rfl
    have hs := hr.taking.shows
    have ha : r.pass.access = r.access := rfl
    refine ⟨hr.access, ?_, hs.decided hr.waiting.told, r.entered.reverse, r.refusedBy, ?_, ?_, ?_⟩
    · exact (hs.mem rfl).mpr (PassRecord.began_mem.mpr ⟨hr.chain.symm, hr.phase.symm, rfl⟩)
    · have hl := hs.lawful.asked
      rwa [hr.chain] at hl
    · intro hn
      rw [hr.whole hn, hr.chain]
    · rw [ha, hs.hookCalls, hr.waiting.told, hr.phase]
      simp [telling]

/-- A write is asked of a lock and of a probe, which at that moment enters another chain with the
same lock and holds the pass open; that one is left after the write. -/
def passInPass : List Step :=
  [.aspect "l" (.lock (.milliseconds 1)),
    .aspect "a" (.audit),
    .chain "inner" [.shared "a", .shared "l", .shared "a"],
    .chain "outer" [.shared "l", .fresh (.probe {
      name := "p"
      script := fun h => if h = .beforeWrite then
        some fun _ => [.enter "inner" .read (some "held") { value := .int 2 }] else none })],
    .enter "outer" .write none { value := .int 1 },
    .exit "held"]

/-- The accesses of `passInPass`. -/
def passInPassAccess (value : Int64) (ticket : Nat) : Access where
  descriptor := { store := .given .zero, id := ⟨0, 0⟩, name := "x", type := .int64 }
  value := .int64 value
  ticket := ticket

/-- The lock refuses the pass that is begun in the other, since the other holds it. -/
theorem passInPass_pairs_up :
    let w := reached (fun _ => false) maxDepth {} passInPass
    let outer := passInPassAccess 1 1
    let inner := passInPassAccess 2 2
    (¬ Panicked w.history ∧ begunTickets w.history = [2, 1]) ∧
    hookCalls 1 w.history = asking .write outer [0, 2] none ++ telling .write outer true [2, 0] ∧
    hookCalls 2 w.history = asking .read inner [1] (some 0) ++ telling .read inner false [1] := by
  have hp : ¬ Panicked (reached (fun _ => false) maxDepth {} passInPass).history := by
    decide +kernel
  have ht := ((hooks_pair_up maxDepth passInPass).1 _ _ rfl hp).1
  refine ⟨⟨hp, ht.trans ?_⟩, ?_⟩ <;> decide +kernel

end Scenario

end GuardedStore
