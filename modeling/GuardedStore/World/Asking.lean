import GuardedStore.World.Engine

/-!
Calls on a single aspect: asking whether it admits an access, and telling it how the access ended.

`call` runs a routine by address. A probe's answer is settled before its script runs, and so is
every other aspect's state, so a script that comes back to the same aspect finds this call
counted.
-/
namespace GuardedStore.Engine

variable (call : Nat → Engine Unit)

def setAspect (aspect : Nat) (a : Aspect Nat) : Engine Unit :=
  modify (World.setAspect aspect a)

/-- Runs a routine, if there is one and scripts run at all. -/
def callAny (routine : Option Nat) : Engine Unit := do
  match routine with
  | some r => unless (← get).muted do call r
  | none => pure ()

/-- Runs a probe's hook: the report, unless the probe is quiet, and then the script. -/
def probeHook (p : Probe Nat) (hook : Hook) (permitted : Option Bool) (access : Access) :
    Engine Unit := do
  unless p.quiet do report (.hook p.name hook permitted access)
  callAny call (p.script hook)

/-- The aspect's own answer to an access. -/
def answer (aspect : Nat) (phase : Phase) (access : Access) : Engine Bool := do
  let w ← get
  match w.aspect aspect with
  | .audit _ | .plain _ => return true
  | .lock l =>
    match l.acquire access.ticket with
    | .taken l =>
      setAspect aspect (.lock l)
      return true
    | .refused l =>
      setAspect aspect (.lock l)
      notice (.lockTimedOut access.descriptor phase l.patience.inMilliseconds)
      return false
    | .waiting => wait
  | .validation v =>
    match v.verdict w.flag phase access with
    | .admitted => return true
    | .wrongType =>
      setAspect aspect (.validation v.reject)
      notice (.typeMismatch v.name access.descriptor v.type)
      return false
    | .rejected =>
      setAspect aspect (.validation v.reject)
      notice (.valueRejected v.name access.descriptor phase)
      return false
  | .probe p =>
    setAspect aspect (.probe (p.asked phase))
    probeHook call p (.before phase) none access
    return p.admits phase

/-- Asks an aspect whether it admits an access. -/
def ask (aspect : Nat) (phase : Phase) (access : Access) : Engine Bool := do
  let admitted ← answer call aspect phase access
  record (.admitted aspect phase access admitted)
  return admitted

/-- What an aspect does about an access that is over. -/
def settle (aspect : Nat) (phase : Phase) (access : Access) (permitted : Bool) : Engine Unit := do
  match (← get).aspect aspect with
  | .audit a =>
    setAspect aspect (.audit (a.count phase permitted))
    notice (.audited phase access.descriptor permitted)
  | .lock l =>
    match l.release? access.ticket with
    | some l => setAspect aspect (.lock l)
    | none => notice (.releaseIgnored access.descriptor access.ticket)
  | .validation _ | .plain _ => return
  | .probe p => probeHook call p (.after phase) (some permitted) access

/-- Tells an aspect that an access is over, and whether the access was permitted. -/
def tell (aspect : Nat) (phase : Phase) (access : Access) (permitted : Bool) : Engine Unit := do
  record (.told aspect phase access permitted)
  settle call aspect phase access permitted

end GuardedStore.Engine
