import GuardedStore.World.Happening

/-!
Notices as entries of a log: a level, the part of the library that speaks, a message, and fields.
-/
namespace GuardedStore

inductive Level where
  | error
  | warn
  | info
  | debug
  | trace
  deriving DecidableEq

def Level.text : Level → String
  | error => "ERROR"
  | warn => "WARN"
  | info => "INFO"
  | debug => "DEBUG"
  | trace => "TRACE"

inductive FieldValue where
  | text (s : String)
  | number (n : Nat)
  | truth (b : Bool)
  deriving DecidableEq

structure LogEntry where
  level : Level
  target : String
  message : String
  fields : List (String × FieldValue)
  deriving DecidableEq

namespace Notice

def storeTarget : String := "dmodel_store::store"

def itemTarget : String := "dmodel_store::item"

def lockTarget : String := "dmodel_aspects::lock"

def validationTarget : String := "dmodel_aspects::validation"

/-- The id and the name of an item. -/
def itemFields (d : Descriptor) : List (String × FieldValue) :=
  [("item", .text d.id.text), ("name", .text d.name)]

def eventFields (e : Event) : List (String × FieldValue) :=
  [("source", .text e.source.text), ("sequence", .number e.sequence)]

def entry : Notice → LogEntry
  | storeCreated store name affinity =>
    ⟨.info, storeTarget, "Data store created",
      [("store", .text store.text), ("name", .text name), ("affinity", .text affinity)]⟩
  | storeDropped store name released =>
    ⟨.info, storeTarget, "Data store dropped",
      [("store", .text store.text), ("name", .text name), ("released", .number released)]⟩
  | itemCreated store item name type =>
    ⟨.debug, storeTarget, "Item created",
      [("store", .text store.text), ("item", .text item.text), ("name", .text name),
        ("value_type", .text type.name)]⟩
  | itemDestroyed store item name =>
    ⟨.debug, storeTarget, "Item destroyed",
      [("store", .text store.text), ("item", .text item.text), ("name", .text name)]⟩
  | affinityChanged store old new items =>
    ⟨.debug, storeTarget, "Store affinity changed",
      [("store", .text store.text), ("from", .text old), ("to", .text new),
        ("items", .number items)]⟩
  | storeExecuted store triggers hooks =>
    ⟨.debug, storeTarget, "Store executed",
      [("store", .text store.text), ("triggers", .number triggers), ("hooks", .number hooks)]⟩
  | writeStored item sequence =>
    ⟨.trace, itemTarget, "Write stored", itemFields item ++ [("sequence", .number sequence)]⟩
  | writeVetoed item vetoedBy =>
    ⟨.debug, itemTarget, "Write vetoed", itemFields item ++ [("vetoed_by", .text vetoedBy)]⟩
  | readRefused item refusedBy =>
    ⟨.error, itemTarget, "Read refused on live item",
      itemFields item ++ [("refused_by", .text refusedBy)]⟩
  | readSuperseded item attempts =>
    ⟨.trace, itemTarget, "Read snapshot superseded, retrying",
      [("item", .text item.id.text), ("attempts", .number attempts)]⟩
  | triggerDropped event =>
    ⟨.debug, "dmodel_runtime::affinity", "Trigger dropped: no affinity", eventFields event⟩
  | triggerQueued domain event =>
    ⟨.trace, "dmodel_runtime::cooperative", "Trigger queued",
      ("domain", .text domain) :: eventFields event⟩
  | runComplete domain stats =>
    ⟨.debug, "dmodel_runtime::cooperative", "Cooperative run complete",
      [("domain", .text domain), ("events", .number stats.events),
        ("notified", .number stats.notified), ("executed", .number stats.executed)]⟩
  | lockTimedOut item phase milliseconds =>
    ⟨.warn, lockTarget, "Item lock acquisition timed out",
      itemFields item ++ [("op", .text phase.name), ("timeout_ms", .number milliseconds)]⟩
  | releaseIgnored item ticket =>
    ⟨.debug, lockTarget, "Ignoring release from an access that does not hold the item lock",
      [("item", .text item.id.text), ("ticket", .number ticket)]⟩
  | typeMismatch aspect item expected =>
    ⟨.warn, validationTarget, "Validation aspect attached to an item of another type",
      [("aspect", .text aspect), ("item", .text item.id.text), ("expected", .text expected.name),
        ("actual", .text item.type.name)]⟩
  | valueRejected aspect item phase =>
    ⟨.debug, validationTarget, "Value rejected by validation",
      ("aspect", .text aspect) :: itemFields item ++ [("op", .text phase.name)]⟩
  | audited phase item permitted =>
    ⟨.info, "dmodel::audit", phase.name,
      itemFields item ++ [("size", .number item.size), ("permitted", .truth permitted)]⟩

end Notice

end GuardedStore
