import GuardedStore.Proofs.Run.Heaps
import GuardedStore.Proofs.Run.Signalling
import GuardedStore.Proofs.Run.Steps

/-!
The moments of a run.

A script can look at the world before each of its steps, so these are the moments that a run has.
`reached` runs steps until a moment at which `halt` holds; a law is kept up to every one of them,
however deep scripts run within one another there.

Of the calls that are made from within others a scenario refuses some, and domains that deliver at
once let events drop that are raised while they deliver or while a store has its hooks run. In an
open run nothing keeps such calls away at the moments at which `opens` holds. A run that is opened
at no moment is the one that a scenario makes.
-/
namespace GuardedStore

namespace World

/-- Nothing keeps calls away because of what is under way, whether hooks are being run, triggers are
being raised, or events are being delivered. -/
def unbarred (w : World) : World :=
  { w with
    modelDepth := 0
    triggerDepth := 0
    domains := w.domains.map fun d => d.setDelivering false }

/-- Where `opens` holds, nothing keeps calls away. -/
def opened (opens : World → Bool) (w : World) : World :=
  if opens w then w.unbarred else w

theorem domain_unbarred (w : World) (d : Nat) :
    w.unbarred.domain d = (w.domain d).setDelivering false :=
  Heap.get_map rfl w.domains d

theorem signalling_unbarred {T : Nat → Prop} (w : World) : w.Signalling T w.unbarred := by
  have same (d : Nat) : (w.domain d).SameTable (w.unbarred.domain d) := by
    rw [domain_unbarred]
    exact Domain.sameTable_setDelivering _ false
  exact { w.signalling_bookkeeping 0 0 w.muted with
    kind := fun d => (same d).kind
    subscribers := fun h => .inl ((same _).subscribers _ ▸ h)
    table := fun d => (same d).subscribers
    counts := fun d => (same d).recorded
    books := fun d => by
      rw [domain_unbarred]
      exact Domain.books_setDelivering _ false }

end World

/-- A law of deliveries allows a run to be opened. -/
theorem Law.Signalling.opens {L : Law} {T : Nat → Prop} (c : L.Signalling T) {opens : World → Bool}
    (w : World) (_ : opens w) (hw : L.inv w) : L.Holds w .done w.unbarred :=
  c.signalling w.signalling_unbarred hw

namespace Scenario

/-- Calls a routine as `callWithin` does, and waits for ever at the first moment at which `halt`
holds. -/
def callUntil (halt : World → Bool) : (depth : Nat) → Nat → Engine Unit
  | 0, r => do
    unless (← Engine.callRoutine r).isEmpty do Engine.record .tooDeep
  | depth + 1, r => do
    (← Engine.callRoutine r).forM fun s => do
      if halt (← Engine.get) then Engine.wait
      scriptStep (callUntil halt depth) s

/-- Calls a routine as `callUntil` does, in a run that is open where `opens` holds. -/
def callOpenUntil (opens halt : World → Bool) : (depth : Nat) → Nat → Engine Unit
  | 0, r => do
    unless (← Engine.callRoutine r).isEmpty do Engine.record .tooDeep
  | depth + 1, r => do
    (← Engine.callRoutine r).forM fun s => do
      Engine.modify (World.opened opens)
      if halt (← Engine.get) then Engine.wait
      scriptStep (callOpenUntil opens halt depth) s

/-- Performs steps that are not part of a script in turn; a panic ends no more than the step. -/
def performAll (call : Nat → Engine Unit) : List Step → Engine Unit
  | [] => pure ()
  | s :: steps => fun w =>
    match Performing.answer call s w with
    | (.done _, w) => performAll call steps w
    | (.panicked _, w) => performAll call steps { w with unwinding := false }
    | (.stuck, w) => (.stuck, w)

/-- Where steps lead that start in `w`, if none of them gets stuck. -/
def settledBy (call : Nat → Engine Unit) (w : World) (steps : List Step) : Option World :=
  match performAll call steps w with
  | (.done _, v) => some v
  | _ => none

/-- Where steps lead that start in `w`: to the first moment at which `halt` holds, to where a step
gets stuck, or to the end of the last step. -/
def reached (halt : World → Bool) (depth : Nat) (w : World) (steps : List Step) : World :=
  (performAll (callUntil halt depth) steps w).2

/-- Where steps lead that start in `w`, if none of them gets stuck. -/
def settled (depth : Nat) (w : World) (steps : List Step) : Option World :=
  settledBy (callWithin depth) w steps

/-- Where steps lead as they do for `reached`, in a run that is open where `opens` holds. -/
def reachedOpen (opens halt : World → Bool) (depth : Nat) (w : World) (steps : List Step) : World :=
  (performAll (callOpenUntil opens halt depth) steps w).2

/-- Where steps lead as they do for `settled`, in a run that is open where `opens` holds. -/
def settledOpen (opens : World → Bool) (depth : Nat) (w : World) (steps : List Step) :
    Option World :=
  settledBy (callOpenUntil opens (fun _ => false) depth) w steps

theorem callUntil_never (depth : Nat) : callUntil (fun _ => false) depth = callWithin depth := by
  induction depth with
  | zero => rfl
  | succ depth ih =>
    funext r
    simp only [callUntil, callWithin, ih]
    rfl

theorem callOpenUntil_never (halt : World → Bool) (depth : Nat) :
    callOpenUntil (fun _ => false) halt depth = callUntil halt depth := by
  induction depth with
  | zero => rfl
  | succ depth ih =>
    funext r
    simp only [callOpenUntil, callUntil, ih]
    rfl

theorem reachedOpen_never (halt : World → Bool) (depth : Nat) :
    reachedOpen (fun _ => false) halt depth = reached halt depth := by
  funext w steps
  rw [reachedOpen, reached, callOpenUntil_never]

theorem settledOpen_never (depth : Nat) :
    settledOpen (fun _ => false) depth = settled depth := by
  funext w steps
  rw [settledOpen, settled, callOpenUntil_never, callUntil_never]

theorem settledBy_eq_some {call : Nat → Engine Unit} {steps : List Step} {w v : World} :
    settledBy call w steps = some v ↔ performAll call steps w = (.done (), v) := by
  unfold settledBy
  rcases performAll call steps w with ⟨_ | _ | _, u⟩ <;> simp

theorem settled_cons (depth : Nat) (s : Step) (w : World) (steps : List Step) :
    settled depth w (s :: steps) =
      match Performing.answer (callWithin depth) s w with
      | (.done _, w) => settled depth w steps
      | (.panicked _, w) => settled depth { w with unwinding := false } steps
      | (.stuck, _) => none := by
  simp only [settled, settledBy, performAll]
  rcases Performing.answer (callWithin depth) s w with ⟨_ | _ | _, v⟩ <;> rfl

theorem reachedOpen_of_settledOpen {opens : World → Bool} {depth : Nat} {steps : List Step}
    {w v : World} (h : settledOpen opens depth w steps = some v) :
    reachedOpen opens (fun _ => false) depth w steps = v :=
  congrArg Prod.snd (settledBy_eq_some.mp h)

theorem reached_of_settled {depth : Nat} {steps : List Step} {w v : World}
    (h : settled depth w steps = some v) : reached (fun _ => false) depth w steps = v := by
  rw [← settledOpen_never] at h
  rw [← reachedOpen_never, reachedOpen_of_settledOpen h]

theorem settledOpen_eq_some {opens : World → Bool} {depth : Nat} {steps : List Step} {w : World}
    (h : (settledOpen opens depth w steps).isSome) :
    settledOpen opens depth w steps =
      some (reachedOpen opens (fun _ => false) depth w steps) := by
  obtain ⟨v, hv⟩ := Option.isSome_iff_exists.mp h
  rw [hv, reachedOpen_of_settledOpen hv]

theorem settled_eq_some {depth : Nat} {steps : List Step} {w : World}
    (h : (settled depth w steps).isSome) :
    settled depth w steps = some (reached (fun _ => false) depth w steps) := by
  rw [← settledOpen_never] at h ⊢
  rw [← reachedOpen_never, settledOpen_eq_some h]

theorem runFrom_cons (depth : Nat) (s : Step) (w : World) (steps : List Step) :
    runFrom depth w (s :: steps) = report w.history (step depth s w).1 (step depth s w).2 ::
      runFrom depth (step depth s w).2 steps := rfl

theorem report_of_append {before newer : List Happening} {a : Answer} {w : World}
    (h : w.history = newer ++ before) : report before a w = ⟨a, newer.reverse⟩ := by
  unfold report
  rw [h, List.length_append, Nat.add_sub_cancel, List.take_left]

variable {L : Law} {Usable : World → Nat → Prop}

section Steps

variable {call : Nat → Engine Unit} (hs : ∀ s, (Performing.answer call s).Keeps L)

include hs

theorem performAll_inv (hu : ∀ w, L.inv w → L.inv { w with unwinding := false })
    (steps : List Step) {w : World} (hw : L.inv w) : L.inv (performAll call steps w).2 := by
  induction steps generalizing w with
  | nil => exact hw
  | cons s steps ih =>
    unfold performAll
    rcases ho : Performing.answer call s w with ⟨_ | _ | _, v⟩
    · exact ih ((hs s w).holds hw ho).1
    · exact ih (hu v ((hs s w).holds hw ho).1)
    · exact ((hs s w).holds hw ho).1

/-- What steps keep is kept up to where they lead. -/
theorem performAll_holds (hu : ∀ w, L.inv w → L.Holds w .done { w with unwinding := false })
    (steps : List Step) {w : World} (hw : L.inv w) :
    ∃ e, L.Holds w e (performAll call steps w).2 := by
  induction steps generalizing w with
  | nil => exact ⟨.done, hw, L.refl hw⟩
  | cons s steps ih =>
    unfold performAll
    rcases ho : Performing.answer call s w with ⟨_ | _ | _, v⟩ <;>
      have hv := (hs s w).holds hw ho
    · obtain ⟨e, he⟩ := ih hv.1
      exact ⟨e, hv.done_trans hw he⟩
    · have hv' := hv.trans hw (by simp) (hu v hv.1)
      obtain ⟨e, he⟩ := ih hv'.1
      exact ⟨_, hv'.trans hw (by simp [Ending.andThen]) he⟩
    · exact ⟨.stuck, hv⟩

/-- What steps keep that do not get stuck holds where they come to rest. -/
theorem settledBy_inv (hu : ∀ w, L.inv w → L.inv { w with unwinding := false }) {P : World → Prop}
    (hPu : ∀ w, P w → P { w with unwinding := false })
    (hP : ∀ {w e w'}, L.inv w → P w → L.Holds w e w' → e ≠ .stuck → P w')
    {steps : List Step} {w v : World} (hw : L.inv w) (hPw : P w)
    (h : settledBy call w steps = some v) : L.inv v ∧ P v := by
  rw [settledBy_eq_some] at h
  induction steps generalizing w with
  | nil =>
    cases h
    exact ⟨hw, hPw⟩
  | cons s steps ih =>
    unfold performAll at h
    rcases ho : Performing.answer call s w with ⟨_ | _ | _, u⟩ <;> rw [ho] at h <;>
      have hu' := (hs s w).holds hw ho
    · exact ih hu'.1 (hP hw hPw hu' (by simp)) h
    · exact ih (hu u hu'.1) (hPu u (hP hw hPw hu' (by simp))) h
    · cases h

end Steps

variable
  (h : ∀ call : Nat → Engine Unit, (∀ r, (call r).Keeps L) → Engine.Admits call L Usable)

section Open

variable (opens : World → Bool)
  (hopens : ∀ w, opens w → L.inv w → L.Holds w .done w.unbarred)

include h hopens

theorem callOpenUntil_keeps (halt : World → Bool) (depth : Nat) :
    ∀ r, (callOpenUntil opens halt depth r).Keeps L := by
  have ha : Engine.Admits (fun _ => pure ()) L Usable := h _ fun _ => Engine.keeps_pure ()
  have hr (r : Nat) : (Engine.callRoutine r).Keeps L :=
    fun w => Engine.keepsAt_of_eq rfl
      (ha.idle (.of_names rfl rfl rfl rfl rfl rfl rfl ⟨[], by simp, rfl⟩))
  have ho : (Engine.modify (World.opened opens)).Keeps L := fun w =>
    Engine.keepsAt_modify fun hw => by
      unfold World.opened
      split
      · next hopen => exact hopens w hopen hw
      · exact ⟨hw, L.refl hw⟩
  induction depth with
  | zero =>
    intro r
    refine (hr r).bind fun steps => ?_
    split
    · exact Engine.keeps_pure _
    · exact Performing.idle_keeps ha.toBasics fun w => World.idle_record rfl w
  | succ depth ih =>
    intro r
    have hs (s : Step) : (scriptStep (callOpenUntil opens halt depth) s).Keeps L := by
      have ha := h _ ih
      have hr (s : Step) : (do
          Engine.record
            (.stepDone s.kind (← Performing.answer (callOpenUntil opens halt depth) s))).Keeps L :=
        (Performing.answer_keeps ha s).bind fun a =>
          Performing.idle_keeps ha.toBasics fun w => World.idle_record rfl w
      cases s with
      | panic text => exact ha.panic text
      | _ => exact hr _
    refine (hr r).bind fun steps => Engine.keeps_forM fun s _ => ho.bind fun _ =>
      Engine.keeps_get_bind fun w => ?_
    split
    · exact Engine.keepsAt_wait_bind ha.stuck
    · exact hs s w

theorem reachedOpen_inv (hu : ∀ w, L.inv w → L.inv { w with unwinding := false })
    (halt : World → Bool) (depth : Nat) (steps : List Step) {w : World} (hw : L.inv w) :
    L.inv (reachedOpen opens halt depth w steps) :=
  performAll_inv (Performing.answer_keeps (h _ (callOpenUntil_keeps h opens hopens halt depth)))
    hu steps hw

/-- What steps keep that do not get stuck holds where an open run comes to rest. -/
theorem settledOpen_inv (hu : ∀ w, L.inv w → L.inv { w with unwinding := false }) {P : World → Prop}
    (hPu : ∀ w, P w → P { w with unwinding := false })
    (hP : ∀ {w e w'}, L.inv w → P w → L.Holds w e w' → e ≠ .stuck → P w')
    {depth : Nat} {steps : List Step} {w v : World} (hw : L.inv w) (hPw : P w)
    (hs : settledOpen opens depth w steps = some v) : L.inv v ∧ P v :=
  settledBy_inv (Performing.answer_keeps (h _ (callOpenUntil_keeps h opens hopens _ depth)))
    hu hPu hP hw hPw hs

end Open

include h

theorem callUntil_keeps (halt : World → Bool) (depth : Nat) :
    ∀ r, (callUntil halt depth r).Keeps L := by
  rw [← callOpenUntil_never]
  exact callOpenUntil_keeps h (fun _ => false) (fun _ hopen => by cases hopen) halt depth

theorem reached_inv (hu : ∀ w, L.inv w → L.inv { w with unwinding := false })
    (halt : World → Bool) (depth : Nat) (steps : List Step) {w : World} (hw : L.inv w) :
    L.inv (reached halt depth w steps) :=
  performAll_inv (Performing.answer_keeps (h _ (callUntil_keeps h halt depth))) hu steps hw

/-- What steps keep is kept up to every moment that they reach. -/
theorem reached_holds (hu : ∀ w, L.inv w → L.Holds w .done { w with unwinding := false })
    (halt : World → Bool) (depth : Nat) (steps : List Step) {w : World} (hw : L.inv w) :
    ∃ e, L.Holds w e (reached halt depth w steps) :=
  performAll_holds (Performing.answer_keeps (h _ (callUntil_keeps h halt depth))) hu steps hw

/-- What steps keep that do not get stuck holds where a run comes to rest. -/
theorem settled_inv (hu : ∀ w, L.inv w → L.inv { w with unwinding := false }) {P : World → Prop}
    (hPu : ∀ w, P w → P { w with unwinding := false })
    (hP : ∀ {w e w'}, L.inv w → P w → L.Holds w e w' → e ≠ .stuck → P w')
    {depth : Nat} {steps : List Step} {w w' : World} (hw : L.inv w) (hPw : P w)
    (hs : settled depth w steps = some w') : L.inv w' ∧ P w' := by
  rw [← settledOpen_never] at hs
  exact settledOpen_inv h (fun _ => false) (fun _ hopen => by cases hopen) hu hPu hP hw hPw hs

end Scenario

end GuardedStore
