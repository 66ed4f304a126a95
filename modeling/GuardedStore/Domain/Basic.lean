import GuardedStore.Identity

/-!
Scheduling domains: where the triggers of items and stores go.

A recording domain keeps every event and wakes nobody. A cooperative domain queues events until it
is told to run. An immediate domain delivers an event while it is being raised, unless it is
already delivering one. All three keep subscriptions by source; unsubscribing a source removes all
of them.
-/
namespace GuardedStore

/-- Who can be woken, by address. -/
inductive Subscriber where
  | store (store : Nat)
  | dependent (dependent : Nat)
  deriving DecidableEq

structure Recording where
  /-- In order of arrival. -/
  events : List Event := []
  /-- A source as often as it has been subscribed to. -/
  subscriptions : List Source := []
  deriving DecidableEq, Inhabited

/-- A domain that is told to run. What it counts goes up by no more than what happens and so never
comes near `2 ^ 64`. -/
structure Cooperative where
  /-- The events not yet delivered, oldest first. -/
  queue : List Event := []
  /-- In order of subscription. -/
  subscriptions : List (Source × Subscriber) := []
  received : Nat := 0
  runs : Nat := 0
  executions : Nat := 0
  deriving DecidableEq

structure Immediate where
  /-- The routine run at each delivery. -/
  script : Option Nat := none
  delivering : Bool := false
  subscriptions : List (Source × Subscriber) := []
  deriving DecidableEq

inductive DomainMode where
  | recording (r : Recording)
  | cooperative (c : Cooperative)
  | immediate (i : Immediate)
  deriving DecidableEq

structure Domain where
  label : String
  mode : DomainMode
  deriving DecidableEq

instance : Inhabited Domain := ⟨⟨"", .recording {}⟩⟩

/-- What one run of a cooperative domain did. -/
structure RunStats where
  events : Nat := 0
  notified : Nat := 0
  executed : Nat := 0
  deriving DecidableEq, Inhabited

namespace Domain

def subscribe (d : Domain) (source : Source) (s : Subscriber) : Domain :=
  match d.mode with
  | .recording r =>
    { d with mode := .recording { r with subscriptions := r.subscriptions ++ [source] } }
  | .cooperative c =>
    { d with mode := .cooperative { c with subscriptions := c.subscriptions ++ [(source, s)] } }
  | .immediate i =>
    { d with mode := .immediate { i with subscriptions := i.subscriptions ++ [(source, s)] } }

def unsubscribe (d : Domain) (source : Source) : Domain :=
  match d.mode with
  | .recording r =>
    { d with mode := .recording { r with subscriptions := r.subscriptions.filter (· ≠ source) } }
  | .cooperative c =>
    let subscriptions := c.subscriptions.filter (·.1 ≠ source)
    { d with mode := .cooperative { c with subscriptions } }
  | .immediate i =>
    let subscriptions := i.subscriptions.filter (·.1 ≠ source)
    { d with mode := .immediate { i with subscriptions } }

/-- The subscribers of a source in order of subscription; a recording domain keeps none. -/
def subscribers (d : Domain) (source : Source) : List Subscriber :=
  match d.mode with
  | .recording _ => []
  | .cooperative c => (c.subscriptions.filter (·.1 = source)).map (·.2)
  | .immediate i => (i.subscriptions.filter (·.1 = source)).map (·.2)

/-- The domain with one more event, where it keeps events. -/
def accept (d : Domain) (event : Event) : Domain :=
  match d.mode with
  | .recording r => { d with mode := .recording { r with events := r.events ++ [event] } }
  | .cooperative c =>
    let c := { c with queue := c.queue ++ [event], received := c.received + 1 }
    { d with mode := .cooperative c }
  | .immediate _ => d

/-- The domain with nothing recorded. -/
def clear (d : Domain) : Domain :=
  match d.mode with
  | .recording r => { d with mode := .recording { r with events := [] } }
  | _ => d

/-- The events that wait for a run. -/
def queue (d : Domain) : List Event :=
  match d.mode with
  | .cooperative c => c.queue
  | _ => []

/-- The domain with no event waiting. -/
def emptyQueue (d : Domain) : Domain :=
  match d.mode with
  | .cooperative c => { d with mode := .cooperative { c with queue := [] } }
  | _ => d

/-- The domain with one more run counted. -/
def countRun (d : Domain) (stats : RunStats) : Domain :=
  match d.mode with
  | .cooperative c =>
    let c := { c with runs := c.runs + 1, executions := c.executions + stats.executed }
    { d with mode := .cooperative c }
  | _ => d

def setDelivering (d : Domain) (delivering : Bool) : Domain :=
  match d.mode with
  | .immediate i => { d with mode := .immediate { i with delivering } }
  | _ => d

end Domain

end GuardedStore
