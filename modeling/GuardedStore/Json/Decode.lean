import GuardedStore.Config.Basic
import GuardedStore.Json.Tree

/-!
Identities and configurations from the interchange notation.

A setting that is missing keeps its default, one that is given must have its own type, and null is
of no type. A decoded configuration need not be valid.
-/
namespace GuardedStore

open Json (Tree)

/-- What was given for a setting, or its default. -/
def Json.setting? {α : Type} (read? : Tree → Option α) (standard : α) : Option Tree → Option α
  | none => some standard
  | some tree => read? tree

def StoreId.ofJson? (tree : Tree) : Option StoreId := do
  return .given (← Uuid.ofText? (← tree.text?))

def ItemId.ofJson? (tree : Tree) : Option ItemId := do
  match ← tree.parts? ["index", "generation"] with
  | [some index, some generation] =>
    let index ← index.natural? UInt32.size
    let generation ← generation.natural? UInt32.size
    return ⟨UInt32.ofNat index, UInt32.ofNat generation⟩
  | _ => failure

def AspectConfig.ofJson? (tree : Tree) : Option AspectConfig := do
  match ← tree.parts? ["locking", "lock_timeout_ms", "audit"] with
  | [locking, timeout, audit] =>
    let standard : AspectConfig := {}
    let locking ← Json.setting? Tree.boolean? standard.locking locking
    let timeout ← Json.setting? (fun t => (t.natural? UInt64.size).map UInt64.ofNat)
      standard.lockTimeout timeout
    let audit ← Json.setting? Tree.boolean? standard.audit audit
    return ⟨locking, timeout, audit⟩
  | _ => failure

def StoreConfig.ofJson? (tree : Tree) : Option StoreConfig := do
  match ← tree.parts? ["name", "aspects"] with
  | [name, aspects] =>
    let standard : StoreConfig := {}
    let name ← Json.setting? Tree.text? standard.name name
    let aspects ← Json.setting? AspectConfig.ofJson? standard.aspects aspects
    return ⟨name, aspects⟩
  | _ => failure

end GuardedStore
