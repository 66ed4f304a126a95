import GuardedStore.Proofs.Run.Tally

/-!
The flow of events through a history.

An event is requested of a domain, queued, taken by a run, handed to subscribers and signalled to a
store, and an execution of the store counts it. Each of these is a happening. How often something
happened is a tally over the history; `waiting` and `executions` say which signals wait for an
execution of a store, and which ones each execution counted.
-/
namespace GuardedStore

namespace Happening

/-- An event was requested of a domain. -/
def requests (d : Nat) (e : Event) : Happening → Nat
  | requested _ (some r) x => if r = d ∧ x = e then 1 else 0
  | _ => 0

/-- How often an event was among those that a run took. -/
def takes (d : Nat) (e : Event) : Happening → Nat
  | taken r events => if r = d then events.count e else 0
  | _ => 0

/-- An event was handed to its subscribers by a domain. -/
def deals (d : Nat) (e : Event) : Happening → Nat
  | handed r x _ => if r = d ∧ x = e then 1 else 0
  | _ => 0

/-- How often a store is among those that an event was handed to. -/
def hands (s : Nat) (e : Event) : Happening → Nat
  | handed _ x subscribers => if x = e then subscribers.count (.store s) else 0
  | _ => 0

/-- A store was let know of an event by somebody who is not a domain. -/
def prompts (s : Nat) (e : Event) : Happening → Nat
  | prompted t x => if t = s ∧ x = e then 1 else 0
  | _ => 0

/-- A store was notified of an event. -/
def signals (s : Nat) (e : Event) : Happening → Nat
  | signalled t x => if t = s ∧ x = e then 1 else 0
  | _ => 0

/-- A store began to execute. -/
def executes (s : Nat) : Happening → Nat
  | executing t _ _ => if t = s then 1 else 0
  | _ => 0

def execution? (s : Nat) : Happening → Option (Nat × List ModelHook)
  | executing t n hooks => if t = s then some (n, hooks) else none
  | _ => none

def ran? (s : Nat) : Happening → Option (ModelHook × Nat)
  | ran t which n => if t = s then some (which, n) else none
  | _ => none

def registered? (s : Nat) : Happening → Option ModelHook
  | registered t which => if t = s then some which else none
  | _ => none

/-- Whether a happening is a part of the flow of events to a store. -/
def concerns (s : Nat) : Happening → Bool
  | requested .. | taken .. | handed .. => true
  | signalled t _ | prompted t _ | registered t _ | executing t _ _ | ran t _ _ => t = s
  | _ => false

/-- Whether a happening comes with a change of a store's signal. -/
def resignals (s : Nat) : Happening → Bool
  | signalled t _ | registered t _ | executing t _ _ => t = s
  | _ => false

end Happening

/-- The events signalled to a store since it last executed, latest first. -/
def waiting (s : Nat) : List Happening → List Event
  | [] => []
  | .signalled t e :: older => if t = s then e :: waiting s older else waiting s older
  | .executing t _ _ :: older => if t = s then [] else waiting s older
  | _ :: older => waiting s older

/-- The events that each execution of a store counted, latest first. -/
def executions (s : Nat) : List Happening → List (List Event)
  | [] => []
  | .executing t _ _ :: older =>
    if t = s then waiting s older :: executions s older else executions s older
  | _ :: older => executions s older

/-- For each execution of a store, in order, the count it came with and the hooks it was for. -/
def executed (s : Nat) (history : List Happening) : List (Nat × List ModelHook) :=
  history.reverse.filterMap (Happening.execution? s)

/-- The hooks of a store that ran, in order, each with the count it was given. -/
def hooksRun (s : Nat) (history : List Happening) : List (ModelHook × Nat) :=
  history.reverse.filterMap (Happening.ran? s)

/-- The hooks that were registered with a store, in order. -/
def registered (s : Nat) (history : List Happening) : List ModelHook :=
  history.reverse.filterMap (Happening.registered? s)

/-- Every execution of a store was for all hooks that were registered then. -/
def Listed (s : Nat) (history : List Happening) : Prop :=
  ∀ n hooks older, .executing s n hooks :: older <:+ history → hooks = registered s older

/-- Whatever a domain handed out had been requested of it. -/
def Asked (history : List Happening) : Prop :=
  ∀ d e subs older, .handed d e subs :: older <:+ history →
    ∃ issuer, .requested issuer (some d) e ∈ older

theorem Asked.cons {y : Happening} {h : List Happening} (ha : Asked h)
    (hy : ∀ {d e subs}, y = .handed d e subs → ∃ issuer, .requested issuer (some d) e ∈ h) :
    Asked (y :: h) := by
  intro d e subs older hm
  rcases List.suffix_cons_iff.mp hm with hm | hm
  · obtain ⟨rfl, rfl⟩ := List.cons_eq_cons.mp hm
    exact hy rfl
  · exact ha d e subs older hm

theorem Asked.append {newer h : List Happening} (ha : Asked h)
    (hn : ∀ y ∈ newer, ∀ d e, y.deals d e = 0) : Asked (newer ++ h) := by
  induction newer with
  | nil => exact ha
  | cons y newer ih =>
    refine (ih fun z hz => hn z (List.mem_cons_of_mem y hz)).cons fun {d e subs} hy => ?_
    have := hn y List.mem_cons_self d e
    simp [hy, Happening.deals] at this

theorem executed_append (s : Nat) (newer h : List Happening) :
    executed s (newer ++ h) = executed s h ++ executed s newer := by
  simp [executed]

theorem hooksRun_append (s : Nat) (newer h : List Happening) :
    hooksRun s (newer ++ h) = hooksRun s h ++ hooksRun s newer := by
  simp [hooksRun]

variable {s : Nat}

theorem executed_eq_nil {h : List Happening} (hh : ∀ y ∈ h, y.concerns s = false) :
    executed s h = [] := by
  have hy (y : Happening) (hy : y.concerns s = false) : y.execution? s = none := by
    cases y <;> simp_all [Happening.concerns, Happening.execution?]
  exact List.filterMap_eq_nil_iff.mpr fun y hm => hy y (hh y (List.mem_reverse.mp hm))

theorem hooksRun_eq_nil {h : List Happening} (hh : ∀ y ∈ h, y.concerns s = false) :
    hooksRun s h = [] := by
  have hy (y : Happening) (hy : y.concerns s = false) : y.ran? s = none := by
    cases y <;> simp_all [Happening.concerns, Happening.ran?]
  exact List.filterMap_eq_nil_iff.mpr fun y hm => hy y (hh y (List.mem_reverse.mp hm))

theorem registered_append (s : Nat) (newer h : List Happening) :
    registered s (newer ++ h) = registered s h ++ registered s newer := by
  simp [registered]

theorem Listed.cons {y : Happening} {h : List Happening} (hl : Listed s h)
    (hy : ∀ {n hooks}, y = .executing s n hooks → hooks = registered s h) : Listed s (y :: h) := by
  intro n hooks older hm
  rcases List.suffix_cons_iff.mp hm with hm | hm
  · obtain ⟨rfl, rfl⟩ := List.cons_eq_cons.mp hm
    exact hy rfl
  · exact hl n hooks older hm

/-- Two histories say the same of the signal of a store. -/
structure SameSignal (s : Nat) (h h' : List Happening) : Prop where
  waiting : waiting s h' = waiting s h
  executions : executions s h' = executions s h
  executed : executed s h' = executed s h
  registered : registered s h' = registered s h
  listed : Listed s h → Listed s h'

theorem sameSignal_cons {y : Happening} (hy : y.resignals s = false) (h : List Happening) :
    SameSignal s h (y :: h) where
  waiting := by cases y <;> simp_all [waiting, Happening.resignals]
  executions := by cases y <;> simp_all [executions, Happening.resignals]
  executed := by
    have hx : y.execution? s = none := by
      cases y <;> simp_all [Happening.execution?, Happening.resignals]
    simp [executed, hx]
  registered := by
    have hr : y.registered? s = none := by
      cases y <;> simp_all [Happening.registered?, Happening.resignals]
    simp [registered, hr]
  listed hl := hl.cons fun {n hooks} he => by simp [he, Happening.resignals] at hy

/-- Only certain happenings change the signal of a store. -/
theorem sameSignal_append {newer : List Happening} (hn : ∀ y ∈ newer, y.resignals s = false)
    (h : List Happening) : SameSignal s h (newer ++ h) := by
  induction newer with
  | nil => exact ⟨rfl, rfl, rfl, rfl, id⟩
  | cons y newer ih =>
    have hy := sameSignal_cons (hn y List.mem_cons_self) (newer ++ h)
    replace ih := ih fun z hz => hn z (List.mem_cons_of_mem y hz)
    exact ⟨hy.waiting.trans ih.waiting, hy.executions.trans ih.executions,
      hy.executed.trans ih.executed, hy.registered.trans ih.registered, hy.listed ∘ ih.listed⟩

theorem resignals_of_aside {y : Happening} (hy : y.concerns s = false) : y.resignals s = false := by
  cases y <;> simp_all [Happening.concerns, Happening.resignals]

theorem sameSignal_of_aside {newer : List Happening} (hn : ∀ y ∈ newer, y.concerns s = false)
    (h : List Happening) : SameSignal s h (newer ++ h) :=
  sameSignal_append (fun y hy => resignals_of_aside (hn y hy)) h

/-- Nothing weighs what is no part of the flow. -/
structure Weightless (s : Nat) (y : Happening) : Prop where
  requests : ∀ d e, y.requests d e = 0
  takes : ∀ d e, y.takes d e = 0
  deals : ∀ d e, y.deals d e = 0
  hands : ∀ e, y.hands s e = 0
  prompts : ∀ e, y.prompts s e = 0
  signals : ∀ e, y.signals s e = 0
  executes : y.executes s = 0

theorem weightless_of_aside {y : Happening} (hy : y.concerns s = false) : Weightless s y := by
  cases y <;> constructor <;> simp_all [Happening.concerns, Happening.requests, Happening.takes,
    Happening.deals, Happening.hands, Happening.prompts, Happening.signals, Happening.executes]

/-- Every signal waits or was counted. -/
theorem tally_signals (s : Nat) (e : Event) (h : List Happening) :
    tally (Happening.signals s e) h = (waiting s h).count e + (executions s h).flatten.count e := by
  induction h with
  | nil => rfl
  | cons y h ih =>
    rw [tally_cons, ih]
    cases y with
    | signalled t x =>
      by_cases ht : t = s
      · simp only [Happening.signals, waiting, executions, ht, true_and, if_true, List.count_cons,
          beq_iff_eq]
        omega
      · simp [Happening.signals, waiting, executions, ht]
    | executing t n hooks =>
      by_cases ht : t = s
      · simp [Happening.signals, waiting, executions, ht, List.count_append]
      · simp [Happening.signals, waiting, executions, ht]
    | _ => simp [Happening.signals, waiting, executions]

end GuardedStore
