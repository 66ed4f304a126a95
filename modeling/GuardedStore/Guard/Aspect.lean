import GuardedStore.Config.Basic
import GuardedStore.Guard.Audit
import GuardedStore.Guard.Lock
import GuardedStore.Guard.Validation

/-!
The kinds of aspect that a chain is made of.

A probe reports the hooks called on it, answers as it was told to, and may run a script at each
hook; the type of its scripts is left open, since a probe is planned with scripts and lives with
references to them. `AspectConfig.aspects` is the chain a store gives an item by default: the
audit stands in front of the lock, so that it also sees the accesses the lock refuses.
-/
namespace GuardedStore

structure Probe (σ : Type) where
  name : String
  /-- A quiet probe does not report its hooks. -/
  quiet : Bool := false
  /-- The answers to writes in turn; the last one repeats, and there is a yes where there is none.
  -/
  writes : List Bool := []
  reads : List Bool := []
  script : Hook → Option σ := fun _ => none
  writesAsked : Nat := 0
  readsAsked : Nat := 0

instance {σ : Type} : Inhabited (Probe σ) := ⟨{ name := "" }⟩

namespace Probe

variable {σ : Type}

/-- The answer with number `n`. -/
def answer (answers : List Bool) (n : Nat) : Bool :=
  (answers[n]?).getD (answers.getLastD true)

/-- Whether the probe admits the next access of the phase. -/
def admits (p : Probe σ) : Phase → Bool
  | .write => answer p.writes p.writesAsked
  | .read => answer p.reads p.readsAsked

/-- The probe after one more access of the phase. -/
def asked (p : Probe σ) : Phase → Probe σ
  | .write => { p with writesAsked := p.writesAsked + 1 }
  | .read => { p with readsAsked := p.readsAsked + 1 }

end Probe

inductive Aspect (σ : Type) where
  | audit (a : Audit)
  | lock (l : Lock)
  | validation (v : Validation)
  /-- An aspect that overrides no hook. -/
  | plain (name : String)
  | probe (p : Probe σ)

instance {σ : Type} : Inhabited (Aspect σ) := ⟨.plain ""⟩

namespace Aspect

variable {σ : Type}

def name : Aspect σ → String
  | audit _ => "audit"
  | lock _ => "lock"
  | validation v => v.name
  | plain name => name
  | probe p => p.name

end Aspect

/-- The aspects an item gets by default, in chain order. -/
def AspectConfig.aspects {σ : Type} (c : AspectConfig) : List (Aspect σ) :=
  (if c.audit then [.audit {}] else []) ++
    (if c.locking then [.lock { patience := .milliseconds c.lockTimeout }] else [])

end GuardedStore
