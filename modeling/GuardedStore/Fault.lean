import GuardedStore.Identity

/-!
What an operation can answer instead of its result.

Every fault has a code of three parts, by which it can be routed without looking at its cause, and a
message. The integrity fault of a refused read is the one whose condition is `corrupt`.
-/
namespace GuardedStore

/-- Who raised a fault. -/
inductive FaultSystem where
  | framework
  | application
  deriving DecidableEq, Inhabited

inductive FaultComponent where
  | runtime
  | store
  | aspect
  | config
  deriving DecidableEq, Inhabited

inductive FaultCondition where
  | corrupt
  | stale
  | notOwned
  | invalidArgument
  | unavailable
  | exhausted
  deriving DecidableEq, Inhabited

def FaultSystem.text : FaultSystem → String
  | framework => "Framework"
  | application => "Application"

def FaultComponent.text : FaultComponent → String
  | runtime => "Runtime"
  | store => "Store"
  | aspect => "Aspect"
  | config => "Config"

def FaultCondition.text : FaultCondition → String
  | corrupt => "Corrupt"
  | stale => "Stale"
  | notOwned => "NotOwned"
  | invalidArgument => "InvalidArgument"
  | unavailable => "Unavailable"
  | exhausted => "Exhausted"

structure FaultCode where
  system : FaultSystem
  component : FaultComponent
  condition : FaultCondition
  deriving DecidableEq, Inhabited

namespace FaultCode

def framework (component : FaultComponent) (condition : FaultCondition) : FaultCode :=
  ⟨.framework, component, condition⟩

def text (c : FaultCode) : String :=
  c.system.text ++ "/" ++ c.component.text ++ "/" ++ c.condition.text

end FaultCode

/-- A fault given by its code and a diagnosis in words. -/
structure SystemFault where
  code : FaultCode
  diagnosis : String
  deriving DecidableEq, Inhabited

namespace SystemFault

def corrupt (component : FaultComponent) (diagnosis : String) : SystemFault :=
  ⟨.framework component .corrupt, diagnosis⟩

def message (f : SystemFault) : String :=
  "[" ++ f.code.text ++ "] " ++ f.diagnosis

end SystemFault

/-- Why a file could not be read as text. -/
inductive ReadFailure where
  | notFound
  | isDirectory
  | notText
  deriving DecidableEq

/-- What can be wrong with a configuration. -/
inductive ConfigFault where
  | unreadable (path : String) (cause : ReadFailure)
  | unparsable
  | unrenderable
  | invalid (reason : String)
  deriving DecidableEq

def ConfigFault.message : ConfigFault → String
  | unreadable path _ => "failed to read config file '" ++ path ++ "'"
  | unparsable => "failed to parse config"
  | unrenderable => "failed to serialize config"
  | invalid reason => "invalid config: " ++ reason

inductive Fault where
  | system (fault : SystemFault)
  | staleItem (item : ItemId)
  | foreignItem (item : ItemId) (owner store : StoreId)
  | duplicateName (name : String)
  | storeFull (store : StoreId)
  | config (fault : ConfigFault)
  deriving DecidableEq

namespace Fault

def message : Fault → String
  | system fault => fault.message
  | staleItem item => "stale item handle " ++ item.text ++ ": the item was destroyed"
  | foreignItem item owner store =>
    "item " ++ item.text ++ " belongs to store " ++ owner.text ++ ", not to store " ++
      store.text
  | duplicateName name => "duplicate item name '" ++ name ++ "'"
  | storeFull store => "store " ++ store.text ++ " cannot hold any more items"
  | config fault => "configuration error: " ++ fault.message

def code : Fault → FaultCode
  | system fault => fault.code
  | staleItem _ => .framework .store .stale
  | foreignItem .. => .framework .store .notOwned
  | duplicateName _ => .framework .store .invalidArgument
  | storeFull _ => .framework .store .exhausted
  | config (.unreadable ..) => .framework .config .unavailable
  | config _ => .framework .config .invalidArgument

/-- Whether this is the integrity fault of a refused read. -/
def isCorrupt : Fault → Bool
  | system fault => fault.code.condition = .corrupt
  | _ => false

end Fault

end GuardedStore
