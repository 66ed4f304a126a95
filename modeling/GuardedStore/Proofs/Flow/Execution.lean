import GuardedStore.Proofs.Flow.Yields

/-!
Notifying a store and running its hooks.

A notification is owed by whoever handed the event out; an execution takes all that waits, and what
its hooks raise waits for the next one, since a store does not execute within itself.
-/
namespace GuardedStore

variable {s : Nat}

namespace Signal

/-- The signal with nothing waiting. -/
def emptied (x : Signal) : Signal :=
  { x with triggered := false, pending := 0 }

def setRunning (running : Bool) (x : Signal) : Signal :=
  { x with running }

/-- The signal with one more execution counted. -/
def count (x : Signal) : Signal :=
  { x with executions := x.executions + 1 }

end Signal

namespace World

variable {owed owed' : Event → Nat} {due due' : Nat → Event → Nat} {w w' : World} {e : Ending}

/-- What comes after one more happening makes up for what this one leaves owed and due. -/
theorem Flows.after_record {y : Happening}
    (h : World.Flows s owed' due' { w with history := y :: w.history } e w')
    (hx : y.execution? s = none) (hr : y.ran? s = none)
    (ho : ∀ a, y.signals s a + owed' a = y.hands s a + y.prompts s a + owed a)
    (hd : ∀ d a, (w'.domain d).kind ≠ .immediate → y.deals d a + due' d a = y.takes d a + due d a) :
    w.Flows s owed due e w' := by
  have hx' : executed s [y] = [] := by simp [executed, hx]
  have hr' : hooksRun s [y] = [] := by simp [hooksRun, hr]
  have hg : w.Grows { w with history := y :: w.history } :=
    { Grows.refl w with history := ⟨[y], rfl⟩ }
  exact {
    grows := hg.trans h.grows
    raised := fun he => by
      obtain ⟨newer, text, hh, hm⟩ := h.raised he
      exact ⟨newer ++ [y], text, by rw [hh]; simp, List.mem_append_left _ hm⟩
    done := fun he => by
      obtain ⟨newer, hn⟩ := h.done he
      refine ⟨newer ++ [y], ?_, fun a => ?_, fun {d} a hk => ?_, ?_, ?_⟩
      · rw [hn.history]
        simp
      · have := hn.signals a
        have := ho a
        simp only [tally_append, tally_cons, tally_nil]
        omega
      · have := hn.deals a hk
        have := hd d a hk
        simp only [tally_append, tally_cons, tally_nil]
        omega
      · rw [hooksRun_append, executed_append, hx', hr', hn.hooks]
        rfl
      · have hz : y.executes s = 0 := by
          cases y <;> simp_all [Happening.executes, Happening.execution?]
        rw [hn.executions, tally_append, tally_cons, hz]
        rfl
    running := fun he hrun => by
      obtain ⟨hrun', newer, hh, hxn, hrn⟩ := h.running he hrun
      refine ⟨hrun', newer ++ [y], by rw [hh]; simp, ?_, ?_⟩
      · rw [executed_append, hx', hxn]
        rfl
      · rw [hooksRun_append, hr', hrn]
        rfl }

/-- The store was notified of an event. -/
def notifying (s : Nat) (e : Event) (w : World) : World :=
  { w with history := .signalled s e :: w.history }.modifySignal s Signal.notify

theorem signal_notifying (w : World) (e : Event) :
    ((w.notifying s e).store s).signal = (w.store s).signal.notify := by
  rw [notifying, store_modifySignal, if_pos rfl]
  rfl

theorem history_notifying (w : World) (e : Event) :
    (w.notifying s e).history = .signalled s e :: w.history := rfl

theorem quiet_notifying (w : World) (e : Event) : w.Quiet (w.notifying s e) :=
  { quiet_modifySignal { w with history := .signalled s e :: w.history } s Signal.notify with
    history := ⟨[.signalled s e], by simp [Happening.aside], rfl⟩ }

theorem counted_notifying (hw : w.Counted s) (hs : s < w.stores.next) (e : Event) :
    (w.notifying s e).Counted s := by
  have hsig := w.signal_notifying (s := s) e
  refine hw.resignal [.signalled s e] (w.quiet_notifying e).still
    (fun hle => absurd hs (Nat.not_lt_of_le hle)) (fun _ => rfl) rfl
    (by simp [Happening.requests, Happening.takes, Happening.deals]) ?_ ?_ ?_ ?_
    (hw.listed.cons nofun) (by simp)
  · rw [hsig, history_notifying, waiting, if_pos rfl, List.length_cons, ← hw.pending]
    rfl
  · rw [hsig]
    simp [Signal.notify]
  · rw [hsig, history_notifying, ← List.singleton_append, registered_append]
    simp [registered, Happening.registered?, Signal.notify, hw.hooks]
  · have hx : executions s (w.notifying s e).history = executions s w.history := rfl
    rw [hx, ← hw.groups, history_notifying, ← List.singleton_append, executed_append]
    simp [executed, Happening.execution?]

theorem flows_notifying (w : World) (e : Event) :
    w.Flows s (fun a => if e = a then 1 else 0) (fun _ _ => 0) .done (w.notifying s e) := by
  have hsig := w.signal_notifying (s := s) e
  exact {
    grows := (w.quiet_notifying e).grows
    raised := fun he => by cases he
    done := fun _ => ⟨[.signalled s e], rfl, fun a => by
        simp [Happening.signals, Happening.hands, Happening.prompts], fun _ _ => rfl, rfl, by
        rw [hsig]
        rfl⟩
    running := fun _ hr => ⟨by rw [hsig]; exact hr, [.signalled s e], rfl, rfl, rfl⟩ }

/-- What a change of the signal leaves as it is. -/
theorem counted_modifySignal {f : Signal → Signal} (hw : w.Counted s) (hs : s < w.stores.next)
    (hf : ∀ x, (f x).triggered = x.triggered ∧ (f x).pending = x.pending ∧
      (f x).hooks = x.hooks) :
    (w.modifySignal s f).Counted s := by
  have hsig : ((w.modifySignal s f).store s).signal = f (w.store s).signal := by
    rw [store_modifySignal, if_pos rfl]
  refine hw.resignal [] (w.quiet_modifySignal s f).still
    (fun hle => absurd hs (Nat.not_lt_of_le hle)) (fun _ => rfl) rfl (by simp) ?_ ?_ ?_ hw.groups
    hw.listed (by simp)
  · rw [hsig, (hf _).2.1]
    exact hw.pending
  · rw [hsig, (hf _).1, (hf _).2.1]
    exact hw.triggered
  · rw [hsig, (hf _).2.2]
    exact hw.hooks

/-- A hook was registered with the store. -/
def registering (s : Nat) (hook : ModelHook) (w : World) : World :=
  { w.modifySignal s fun x => { x with hooks := x.hooks ++ [hook] } with
    history := .registered s hook :: w.history }

theorem signal_registering (w : World) (hook : ModelHook) :
    ((w.registering s hook).store s).signal =
      { (w.store s).signal with hooks := (w.store s).signal.hooks ++ [hook] } :=
  (w.store_modifySignal s s fun x => { x with hooks := x.hooks ++ [hook] }).trans (if_pos rfl)

theorem quiet_registering (w : World) (hook : ModelHook) : w.Quiet (w.registering s hook) :=
  { w.quiet_modifySignal s fun x => { x with hooks := x.hooks ++ [hook] } with
    history := ⟨[.registered s hook], by simp [Happening.aside], rfl⟩ }

theorem counted_registering (hw : w.Counted s) (hs : s < w.stores.next) (hook : ModelHook) :
    (w.registering s hook).Counted s := by
  have hsig := w.signal_registering (s := s) hook
  have hh : (w.registering s hook).history = [.registered s hook] ++ w.history := rfl
  refine hw.resignal [.registered s hook] (w.quiet_registering hook).still
    (fun hle => absurd hs (Nat.not_lt_of_le hle)) (fun _ => rfl) hh
    (by simp [Happening.requests, Happening.takes, Happening.deals]) ?_ ?_ ?_ ?_
    (hw.listed.cons nofun) (by simp)
  · rw [hsig]
    exact hw.pending
  · rw [hsig]
    exact hw.triggered
  · rw [hsig, hh, registered_append, ← hw.hooks]
    simp [registered, Happening.registered?]
  · rw [hh, executed_append, List.map_append, hw.groups]
    simp [executed, executions, Happening.execution?]

theorem flows_registering (w : World) (hook : ModelHook) :
    w.Flows s (fun _ => 0) (fun _ _ => 0) .done (w.registering s hook) where
  grows := (w.quiet_registering hook).grows
  raised he := by cases he
  done _ := ⟨[.registered s hook], rfl, fun _ => rfl, fun _ _ => rfl, rfl, by
    rw [signal_registering]
    rfl⟩
  running _ hr := ⟨by rw [signal_registering]; exact hr, [.registered s hook], rfl, rfl, rfl⟩

/-- The store takes all that waits. -/
def executing (s : Nat) (w : World) : World :=
  { w.modifySignal s Signal.emptied with
    history := .executing s (w.store s).signal.pending (w.store s).signal.hooks :: w.history }

theorem signal_executing (w : World) :
    ((w.executing s).store s).signal = (w.store s).signal.emptied :=
  (w.store_modifySignal s s Signal.emptied).trans (if_pos rfl)

theorem history_executing (w : World) : (w.executing s).history =
    .executing s (w.store s).signal.pending (w.store s).signal.hooks :: w.history := rfl

theorem quiet_executing (w : World) : w.Quiet (w.executing s) :=
  { w.quiet_modifySignal s Signal.emptied with
    history := ⟨[.executing s (w.store s).signal.pending (w.store s).signal.hooks],
      by simp [Happening.aside], rfl⟩ }

theorem waiting_executing (w : World) : waiting s (w.executing s).history = [] := by
  rw [history_executing, waiting, if_pos rfl]

theorem counted_executing (hw : w.Counted s) (hs : s < w.stores.next)
    (ht : (w.store s).signal.triggered = true) : (w.executing s).Counted s := by
  refine hw.resignal [.executing s (w.store s).signal.pending (w.store s).signal.hooks]
    w.quiet_executing.still (fun hle => absurd hs (Nat.not_lt_of_le hle)) (fun _ => rfl) rfl
    (by simp [Happening.requests, Happening.takes, Happening.deals]) ?_ ?_ ?_ ?_ ?_ ?_
  · rw [signal_executing, waiting_executing]
    rfl
  · rw [signal_executing]
    simp [Signal.emptied]
  · rw [signal_executing, history_executing, ← List.singleton_append, registered_append]
    simp [registered, Happening.registered?, Signal.emptied, hw.hooks]
  · -- the new execution counts what has waited until now
    have hx : executions s (w.executing s).history =
        waiting s w.history :: executions s w.history := by
      rw [history_executing, executions, if_pos rfl]
    rw [hx, List.map_cons, List.reverse_cons, ← hw.groups, history_executing,
      ← List.singleton_append, executed_append, List.map_append, ← hw.pending]
    simp [executed, Happening.execution?]
  · refine hw.listed.cons fun {n hooks} he => ?_
    cases he
    exact hw.hooks
  · intro n hooks hm
    have hp := hw.triggered.mp ht
    simp only [List.mem_singleton, Happening.executing.injEq] at hm
    omega

/-- Between `u` and `v`, in the course of one execution, hooks of the store ran as listed. -/
structure Hooked (s : Nat) (ran : List (ModelHook × Nat)) (u : World) (e : Ending) (v : World) :
    Prop where
  grows : u.Grows v
  raised : e = .panicked → ∃ newer text, v.history = newer ++ u.history ∧ .raised text ∈ newer
  running : e ≠ .stuck → (v.store s).signal.running = true
  prompt : e = .done → u.Prompt s v
  done : e = .done → ∃ newer, v.history = newer ++ u.history ∧
    (∀ a, tally (Happening.signals s a) newer =
      tally (Happening.hands s a) newer + tally (Happening.prompts s a) newer) ∧
    (∀ {d} a, (v.domain d).kind ≠ .immediate →
      tally (Happening.deals d a) newer = tally (Happening.takes d a) newer) ∧
    hooksRun s newer = ran ∧ executed s newer = [] ∧
    (v.store s).signal.executions = (u.store s).signal.executions

variable {u v : World} {ran ran' : List (ModelHook × Nat)} {d : Ending}

/-- Whatever a hook does, it does not run the store's own hooks. -/
theorem hooked_of_holds (hu : (u.store s).signal.running = true)
    (h : (flow s).Holds u e v) : u.Hooked s [] e v where
  grows := h.2.1.grows
  raised := h.2.1.raised
  running he := (h.2.1.running he hu).1
  prompt := h.2.2
  done he := by
    obtain ⟨-, newer, hh, hx, hr⟩ := h.2.1.running (by rw [he]; decide) hu
    obtain ⟨newer', hn⟩ := h.2.1.done he
    obtain rfl : newer' = newer := List.append_cancel_right (hn.history.symm.trans hh)
    have hz : tally (Happening.executes s) newer' = 0 := by
      rw [tally_executes, hx]
      rfl
    exact ⟨newer', hh, hn.signals, hn.deals, hr, hx, by rw [hn.executions, hz, Nat.add_zero]⟩

theorem Hooked.trans (hv : v.Counted s) (h : u.Hooked s ran d v)
    (h' : v.Hooked s ran' e w) : u.Hooked s (ran ++ ran') (d.andThen e) w where
  grows := h.grows.trans h'.grows
  raised he := by
    rcases Ending.andThen_eq_panicked he with he | he
    · obtain ⟨newer, text, hh, hr⟩ := h.raised he
      obtain ⟨later, hl⟩ := h'.grows.history
      exact ⟨later ++ newer, text, by rw [← hl, hh, List.append_assoc], by simp [hr]⟩
    · obtain ⟨newer, text, hh, hr⟩ := h'.raised he
      obtain ⟨older, hl⟩ := h.grows.history
      exact ⟨newer ++ older, text, by rw [hh, ← hl, List.append_assoc], by simp [hr]⟩
  running he := h'.running (Ending.ne_stuck_of_andThen he).2
  prompt he := by
    obtain ⟨hd, he⟩ := Ending.andThen_eq_done he
    exact (h.prompt hd).trans h'.grows (h'.prompt he)
  done he := by
    obtain ⟨hd, he⟩ := Ending.andThen_eq_done he
    obtain ⟨n, hh, hs, hdl, hr, hx, hc⟩ := h.done hd
    obtain ⟨n', hh', hs', hdl', hr', hx', hc'⟩ := h'.done he
    refine ⟨n' ++ n, by rw [hh', hh, List.append_assoc], fun a => ?_, fun {r} a hk => ?_, ?_, ?_,
      hc'.trans hc⟩
    · have := hs a
      have := hs' a
      simp only [tally_append]
      omega
    · have := hdl a (hv.kind_ne_immediate h'.grows hk)
      have := hdl' a hk
      simp only [tally_append]
      omega
    · rw [hooksRun_append, hr, hr']
    · rw [executed_append, hx, hx']
      rfl

/-- A hook of the store begins to run. -/
theorem hooked_ran (hu : (u.store s).signal.running = true) (hook : ModelHook) (n : Nat) :
    u.Hooked s [(hook, n)] .done { u with history := .ran s hook n :: u.history } where
  grows := { Grows.refl u with history := ⟨[_], rfl⟩ }
  raised he := by cases he
  running _ := hu
  prompt _ _ he := .inl he
  done _ := ⟨[.ran s hook n], rfl, fun _ => rfl, fun _ _ => rfl, by simp [hooksRun, Happening.ran?],
    rfl, rfl⟩

/-- The execution is over. -/
def ended (s : Nat) (n : Notice) (w : World) : World :=
  { (w.modifySignal s (Signal.setRunning false)).modifySignal s Signal.count with
    history := .notice n :: w.history }

theorem counted_ended (hw : w.Counted s) (hs : s < w.stores.next) (n : Notice) :
    (w.ended s n).Counted s := by
  have h := counted_modifySignal (f := Signal.setRunning false) hw hs fun _ => ⟨rfl, rfl, rfl⟩
  have h' := counted_modifySignal (f := Signal.count) h hs fun _ => ⟨rfl, rfl, rfl⟩
  exact h'.record (y := .notice n) (fun _ _ => ⟨rfl, rfl⟩) rfl nofun

theorem grows_ended (w : World) (n : Notice) : w.Grows (w.ended s n) :=
  { ((w.quiet_modifySignal s (Signal.setRunning false)).grows.trans
      (World.quiet_modifySignal _ s Signal.count).grows) with
    history := ⟨[.notice n], rfl⟩ }

theorem executions_ended (w : World) (n : Notice) :
    ((w.ended s n).store s).signal.executions = (w.store s).signal.executions + 1 := by
  show (((w.modifySignal s (Signal.setRunning false)).modifySignal s
    Signal.count).store s).signal.executions = _
  rw [store_modifySignal, if_pos rfl, store_modifySignal, if_pos rfl]
  rfl

theorem served_ended {u : World} (hu : waiting s u.history = []) (h : u.Prompt s w) (n : Notice) :
    (w.ended s n).Served s := by
  intro e he
  rcases h e he with he | he
  · rw [hu] at he
    cases he
  · exact List.mem_cons_of_mem _ he

/-- From before an execution to after it, with all hooks run. -/
theorem flows_executed {hooks : List ModelHook} {n : Nat} (hv : v.Counted s)
    (hhist : u.history = .executing s n hooks :: w.history) (hg : w.Grows u)
    (hexec : (u.store s).signal.executions = (w.store s).signal.executions)
    (h : u.Hooked s (hooks.map fun hook => (hook, n)) .done v) (note : Notice)
    (hr : (w.store s).signal.running = false) :
    w.Flows s (fun _ => 0) (fun _ _ => 0) .done (v.ended s note) := by
  obtain ⟨newer, hnh, hsig, hdl, hran, hx, hcount⟩ := h.done rfl
  have hn : ∀ y ∈ [Happening.notice note], y.concerns s = false := by simp [Happening.concerns]
  exact {
    grows := (hg.trans h.grows).trans (v.grows_ended note)
    raised := fun he => by cases he
    done := fun _ => by
      refine ⟨[.notice note] ++ (newer ++ [.executing s n hooks]), ?_, fun a => ?_,
        fun {d} a hk => ?_, ?_, ?_⟩
      · show .notice note :: v.history = _
        rw [hnh, hhist]
        simp
      · have := hsig a
        rw [tally_of_aside hn fun _ hy => hy.signals a, tally_of_aside hn fun _ hy => hy.hands a,
          tally_of_aside hn fun _ hy => hy.prompts a]
        simp only [tally_append, tally_cons, tally_nil, Happening.signals, Happening.hands,
          Happening.prompts]
        omega
      · have := hdl a (hv.kind_ne_immediate (v.grows_ended note) hk)
        rw [tally_of_aside hn fun _ hy => hy.deals d a, tally_of_aside hn fun _ hy => hy.takes d a]
        simp only [tally_append, tally_cons, tally_nil, Happening.deals, Happening.takes]
        omega
      · rw [hooksRun_append, hooksRun_append, executed_append, executed_append, hran, hx,
          executed_eq_nil hn, hooksRun_eq_nil hn]
        simp [hooksRun, executed, Happening.ran?, Happening.execution?]
      · rw [executions_ended, hcount, hexec, tally_of_aside hn fun _ hy => hy.executes,
          tally_append, tally_executes, hx]
        simp [Happening.executes]
    running := fun _ hr' => by rw [hr] at hr'; cases hr' }

end World

namespace Engine

variable {call : Nat → Engine Unit} (hc : ∀ r, (call r).Keeps (flow s)) {w : World}

/-- Only the store's own part is left to see to, since that of other stores is no concern of the
flow. -/
theorem KeepsAt.yields_quiet {α : Type} {m : Engine α} {owed : Event → Nat}
    {P : α → World → Prop} (hm : m.KeepsAt (flow s) w) (hw : w.Counted s) (ho : ∀ a, owed a = 0)
    (hP : ∀ a v, w.Prompt s v → P a v) : m.Yields s owed (fun _ _ => 0) P w :=
  (hm.yields hw).mono (fun a => (ho a).symm) (fun _ _ => rfl) fun a v _ hv => hP a v hv

include hc

theorem notify_yields (hw : w.Counted s) {x : Subscriber} (hx : ∀ r, x = .store r → r < w.stores.next)
    (e : Event) :
    (notify call x e).Yields s (fun a => if e = a then [x].count (.store s) else 0) (fun _ _ => 0)
      (fun _ v => x = .store s ∨ w.Prompt s v) w := by
  by_cases hxs : x = .store s
  · subst hxs
    rintro o v ⟨⟩
    have h1 : (fun a => if e = a then [Subscriber.store s].count (.store s) else 0) =
        fun a => if e = a then 1 else 0 := by
      simp
    rw [h1]
    exact ⟨World.counted_notifying hw (hx s rfl) e, w.flows_notifying e, fun _ _ => .inl rfl⟩
  · have ht : ∀ r, x = .store r → r ≠ s := by
      rintro r rfl rfl
      exact hxs rfl
    have hk := notify_keeps (flow_signalling s) hc ht e w
    refine hk.yields_quiet hw (fun a => ?_) fun _ _ hp => .inr hp
    simp [hxs]

theorem prompt_flow {r : Nat} (hr : r < w.stores.next) (e : Event) :
    (prompt call r e).KeepsAt (flow s) w := by
  by_cases hrs : r = s
  · subst hrs
    intro hw
    have hp : World.Counted r { w with history := .prompted r e :: w.history } :=
      hw.record (fun _ _ => ⟨rfl, rfl⟩) rfl nofun
    have hn := World.counted_notifying hp hr e
    refine ⟨hn, ?_, fun _ a ha => ?_⟩
    · refine World.Flows.after_record (World.flows_notifying _ e) rfl rfl (fun a => ?_) fun _ _ _ => rfl
      simp [Happening.signals, Happening.hands, Happening.prompts]
    · have hwait : waiting r (prompt call r e w).2.history = e :: waiting r w.history := by
        show waiting r (.signalled r e :: .prompted r e :: w.history) = _
        simp [waiting]
      rw [hwait] at ha
      rcases List.mem_cons.mp ha with rfl | ha
      · exact .inr (by show _ ∈ _ :: _ :: _; simp)
      · exact .inl ha
  · exact prompt_keeps (flow_signalling s) hc hrs e w

/-- A hook of the store runs, in the course of an execution. -/
theorem runHook_hooked (hw : w.Counted s) (hr : (w.store s).signal.running = true) (n : Nat)
    (hook : ModelHook) {o : Outcome Unit} {v : World} (h : runHook call s n hook w = (o, v)) :
    v.Counted s ∧ w.Hooked s [(hook, n)] o.ending v := by
  have hk : (do
      report (.modelRan hook.label n)
      let depth := (← get).modelDepth
      modify fun w => { w with modelDepth := depth + 1 }
      ensure (callAny call hook.script) (modify fun w => { w with modelDepth := depth })).Keeps
        (flow s) := by
    have hd (n : Nat) : (modify fun w => { w with modelDepth := n }).Keeps (flow s) :=
      bookkeeping_keeps (flow_signalling s) fun _ => ⟨_, _, _, rfl⟩
    refine (report_keeps (flow_signalling s) rfl).bind fun _ => keeps_get_bind fun w =>
      Keeps.bind (hd _) (fun _ => ?_) w
    exact (callAny_keeps hc _).ensure (hd _)
  have hu : World.Counted s { w with history := .ran s hook n :: w.history } :=
    hw.record (fun _ _ => ⟨rfl, rfl⟩) rfl nofun
  have hv := (hk _).holds hu h
  exact ⟨hv.1, (World.hooked_ran hr hook n).trans hu (World.hooked_of_holds hr hv)⟩

theorem runHooks_hooked (n : Nat) (hooks : List ModelHook) : ∀ {w : World}, w.Counted s →
    (w.store s).signal.running = true → ∀ {o v}, hooks.forM (runHook call s n) w = (o, v) →
      v.Counted s ∧ w.Hooked s (hooks.map fun hook => (hook, n)) o.ending v := by
  induction hooks with
  | nil =>
    rintro w hw hr o v ⟨⟩
    exact ⟨hw, World.hooked_of_holds hr ⟨hw, (flow s).refl hw⟩⟩
  | cons hook hooks ih =>
    intro w hw hr o v h
    have h : (runHook call s n hook >>= fun _ => hooks.forM (runHook call s n)) w = (o, v) := h
    rw [bind_apply] at h
    rcases hu : runHook call s n hook w with ⟨_ | text | _, u⟩ <;> rw [hu] at h <;>
      obtain ⟨hcu, hku⟩ := runHook_hooked hc hw hr n hook hu
    · obtain ⟨hv, hkv⟩ := ih hcu (hku.running (by simp)) h
      exact ⟨hv, hku.trans hcu hkv⟩
    · cases h
      exact ⟨hcu, { hku with done := fun he => (by cases he), prompt := fun he => (by cases he) }⟩
    · cases h
      exact ⟨hcu, { hku with done := fun he => (by cases he), prompt := fun he => (by cases he) }⟩

omit hc in
theorem executeStore_apply (call : Nat → Engine Unit) (s : Nat) (w : World) :
    executeStore call s w =
      if !(w.store s).signal.triggered then (.done false, w)
      else if (w.store s).signal.running then (.stuck, w.executing s)
      else (do
        ensure ((w.store s).signal.hooks.forM (runHook call s (w.store s).signal.pending))
          (modify (World.modifySignal s (Signal.setRunning false)))
        modify (World.modifySignal s Signal.count)
        notice (.storeExecuted (w.store s).id (w.store s).signal.pending
          (w.store s).signal.hooks.length)
        return true) ((w.executing s).modifySignal s (Signal.setRunning true)) := by
  unfold executeStore
  show (if _ then _ else _ : Engine Bool) w = _
  split
  · rfl
  · show (if _ then _ else _ : Engine Bool) (w.executing s) = _
    split <;> rfl

theorem executeStore_yields (hw : w.Counted s) (hs : s < w.stores.next) :
    (executeStore call s).Yields s (fun _ => 0) (fun _ _ => 0) (fun _ v => v.Served s) w := by
  intro o v h
  rw [executeStore_apply] at h
  by_cases ht : (w.store s).signal.triggered = true
  · rw [if_neg (by simp [ht])] at h
    have hx := World.counted_executing hw hs ht
    have hgx := w.quiet_executing (s := s) |>.grows
    by_cases hr : (w.store s).signal.running = true
    · rw [if_pos hr] at h
      cases h
      exact ⟨hx, ⟨hgx, nofun, nofun, fun he => absurd rfl he⟩, nofun⟩
    · rw [if_neg hr] at h
      rw [Bool.not_eq_true] at hr
      have hsig : (((w.executing s).modifySignal s (Signal.setRunning true)).store s).signal =
          ((w.store s).signal.emptied).setRunning true := by
        rw [World.store_modifySignal, if_pos rfl, World.signal_executing]
      have hu := World.counted_modifySignal (f := Signal.setRunning true) hx hs
        fun _ => ⟨rfl, rfl, rfl⟩
      have hgu : w.Grows ((w.executing s).modifySignal s (Signal.setRunning true)) :=
        hgx.trans (World.quiet_modifySignal _ s _).grows
      rw [bind_apply] at h
      unfold ensure at h
      rcases hm : (w.store s).signal.hooks.forM (runHook call s (w.store s).signal.pending)
          ((w.executing s).modifySignal s (Signal.setRunning true)) with ⟨_ | text | _, x⟩ <;>
        rw [hm] at h <;>
        obtain ⟨hcx, hkx⟩ := runHooks_hooked hc _ _ hu (by rw [hsig]; rfl) hm
      · cases h
        have hsx : s < x.stores.next := Nat.lt_of_lt_of_le hs (hgu.trans hkx.grows).stores
        exact ⟨World.counted_ended hcx hsx _, World.flows_executed hcx rfl hgu (by rw [hsig]; rfl)
          hkx _ hr, fun _ _ => World.served_ended (World.waiting_executing w) (hkx.prompt rfl) _⟩
      · cases h
        have hsx : s < x.stores.next := Nat.lt_of_lt_of_le hs (hgu.trans hkx.grows).stores
        obtain ⟨newer, text', hh, hm⟩ := hkx.raised rfl
        refine ⟨World.counted_modifySignal hcx hsx fun _ => ⟨rfl, rfl, rfl⟩,
          ⟨hgu.trans (hkx.grows.trans (World.quiet_modifySignal _ s _).grows), fun _ => ?_, nofun,
            fun _ hr' => ?_⟩, nofun⟩
        · exact ⟨newer ++ [.executing s _ _], text', hh.trans (List.append_cons ..),
            List.mem_append_left _ hm⟩
        · rw [hr] at hr'
          cases hr'
      · cases h
        exact ⟨hcx, ⟨hgu.trans hkx.grows, nofun, nofun, fun he => absurd rfl he⟩, nofun⟩
  · rw [if_pos (by simpa using ht)] at h
    cases h
    refine ⟨hw, .refl w, fun _ _ e he => ?_⟩
    have hlen : (waiting s w.history).length = 0 := by
      rw [← hw.pending]
      exact Nat.eq_zero_of_not_pos fun hp => ht (hw.triggered.mpr hp)
    rw [List.eq_nil_of_length_eq_zero hlen] at he
    cases he

theorem executeStore_flow {r : Nat} (hr : r < w.stores.next) :
    (executeStore call r).KeepsAt (flow s) w := by
  by_cases hrs : r = s
  · subst hrs
    intro hw
    exact ((executeStore_yields hc hw hr).mono (fun _ => rfl) (fun _ _ => rfl)
      fun _ _ _ hv => hv.prompt).keepsAt hw
  · exact executeStore_keeps (flow_signalling s) hc hrs w

/-- A store that was given the occasion to act has been served. -/
theorem execute_yields (hw : w.Counted s) {x : Subscriber}
    (hx : ∀ r, x = .store r → r < w.stores.next) :
    (execute call x).Yields s (fun _ => 0) (fun _ _ => 0)
      (fun _ v => w.Prompt s v ∧ (x = .store s → v.Served s)) w := by
  by_cases hxs : x = .store s
  · subst hxs
    refine ((executeStore_yields hc hw (hx s rfl)).bind fun _ v hv _ hsv => yields_pure hv ?_).mono
      (fun _ => rfl) (fun _ _ => rfl) fun _ _ _ h => h
    exact ⟨hsv.prompt, fun _ => hsv⟩
  · have ht : ∀ r, x = .store r → r ≠ s := by
      rintro r rfl rfl
      exact hxs rfl
    have hk := execute_keeps (flow_signalling s) hc ht w
    exact hk.yields_quiet hw (fun _ => rfl) fun _ _ hp => ⟨hp, fun h => absurd h hxs⟩

omit hc in
theorem onExecute_flow {r : Nat} (hr : r < w.stores.next) (hook : ModelHook) :
    (onExecute r hook).KeepsAt (flow s) w := by
  by_cases hrs : r = s
  · subst hrs
    refine keepsAt_get_bind ?_
    split
    · exact keepsAt_wait_bind (flow_signalling r).stuck
    · exact keepsAt_of_eq rfl fun hw =>
        ⟨World.counted_registering hw hr hook, w.flows_registering hook, fun _ _ he => .inl he⟩
  · exact onExecute_keeps (flow_signalling s) hrs hook w

end Engine

end GuardedStore
