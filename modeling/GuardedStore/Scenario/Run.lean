import GuardedStore.Scenario.Guarding
import GuardedStore.Scenario.Scheduling
import GuardedStore.Scenario.Storage

/-!
Running a scenario.

A step is performed to its answer. A script performs its steps in turn and reports each answer;
scripts run within one another only so deep. A panic leaves every script it passes through and
ends the outermost step, whose answer it becomes; the next step goes on from the state the panic
left behind.
-/
namespace GuardedStore

namespace Performing

variable (call : Nat → Engine Unit)

def perform : Step → Performing Answer
  | .panic text => do
    Engine.panic text
    return .ok
  | .domain name label plan => newDomain name label plan
  | .domainInfo domain => domainInfo domain
  | .sourceInfo domain source sort => sourceInfo domain source sort
  | .clear domain => clear domain
  | .runPending domain => runPending call domain
  | .trigger domain source sequence => trigger call domain source sequence
  | .subscribe domain source dependent => subscribe domain source dependent
  | .unsubscribe domain source => unsubscribe domain source
  | .affinityInfo domain other => affinityInfo domain other
  | .dependent name onTrigger onExecute => newDependent name onTrigger onExecute
  | .dropDependent name => dropDependent name
  | .dependentAffinity name domain => dependentAffinity name domain
  | .flag name value => setFlag name value
  | .note text => return .text text
  | .store name plan => newStore name plan
  | .dropStore store => dropStore store
  | .storeInfo store => storeInfo store
  | .storeDebug store => storeDebug store
  | .find store type name key => find store type name key
  | .contains store id => contains store id
  | .stateOf store id => stateOf store id
  | .onExecute store label run => onExecute store label run
  | .execute store => return .truth (← execute call "execute" store)
  | .onExecuteIfTriggered store => do
    let _ ← execute call "on_execute_if_triggered" store
    return .ok
  | .isTriggered store => isTriggered store
  | .storeTrigger store => storeTrigger call store
  | .onTrigger store source sequence => onTrigger call store source sequence
  | .onAffinity store domain => setAffinity "on_affinity" store domain
  | .setAffinity store domain => setAffinity "set_affinity" store domain
  | .create store key name type argument convert factory =>
    create call store key name type argument convert factory
  | .destroy key store => destroy key store
  | .write key store value => write call key store value
  | .read key store => read call key store
  | .readInto key store init => readInto call key store init
  | .itemInfo key store => itemInfo key store
  | .itemDebug key store => itemDebug key store
  | .parallelWrite key store threads each => parallelWrite call key store threads each
  | .keyInfo key other => keyInfo key other
  | .aspect id plan => newAspect id plan
  | .aspectInfo id => aspectInfo id
  | .chain name links => newChain name links
  | .factory name c d => defaultChain name c d
  | .enter chain phase passage access => enter call chain phase passage access
  | .exit passage => exit call passage
  | .hook aspect hook permitted access => callHook call aspect hook permitted access
  | .chainWait chain phase access => chainWait call chain phase access

/-- The answer to a step, whichever way it ends. -/
def answer (s : Step) : Engine Answer := do
  match ← (perform call s).run with
  | .ok a => return a
  | .error a => return a

end Performing

namespace Scenario

/-- Performs a step of a script. A step that panics reports nothing. -/
def scriptStep (call : Nat → Engine Unit) (s : Step) : Engine Unit :=
  match s with
  | .panic text => Engine.panic text
  | s => do Engine.record (.stepDone s.kind (← Performing.answer call s))

/-- Calls a routine where scripts may run `depth` deep within one another. -/
def callWithin : (depth : Nat) → Nat → Engine Unit
  | 0, r => do
    unless (← Engine.callRoutine r).isEmpty do Engine.record .tooDeep
  | depth + 1, r => do
    (← Engine.callRoutine r).forM (scriptStep (callWithin depth))

/-- How deep scripts may run within one another. -/
def maxDepth : Nat := 4

/-- Performs a step that is not part of a script, where scripts may run `depth` deep within one
another. -/
def step (depth : Nat) (s : Step) (w : World) : Answer × World :=
  match Performing.answer (callWithin depth) s w with
  | (.done a, w) => (a, w)
  | (.panicked text, w) => (.panicked text, { w with unwinding := false })
  | (.stuck, w) => (.stuck, w)

/-- What one step did: its answer and what happened meanwhile, in order. -/
structure Report where
  answer : Answer
  happenings : List Happening

/-- The report of a step, given what had happened before, latest first. -/
def report (before : List Happening) (a : Answer) (w : World) : Report :=
  ⟨a, (w.history.take (w.history.length - before.length)).reverse⟩

/-- Performs steps in turn and reports on each. -/
def runFrom (depth : Nat) (w : World) : List Step → List Report
  | [] => []
  | s :: steps =>
    let (a, w') := step depth s w
    report w.history a w' :: runFrom depth w' steps

/-- Performs steps in turn, starting from nothing. -/
def run (steps : List Step) : List Report :=
  runFrom maxDepth {} steps

namespace Report

def trace (r : Report) : List Happening :=
  r.happenings.filter Happening.inTrace

def log (r : Report) : List Notice :=
  r.happenings.filterMap Happening.notice?

end Report

end Scenario

end GuardedStore
