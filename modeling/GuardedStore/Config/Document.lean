import GuardedStore.Config.Basic
import GuardedStore.Toml.Document
import GuardedStore.Toml.Writer

/-!
Configurations as documents of nested tables.

Reading takes the settings it knows by name, lets every other key be, and keeps the default of a
setting that is not given; the protections may also be given as a list in the order locking,
timeout, audit. The reading of a file ends in a validation, the writing does not start with one.

Reading and writing a document as such are the work of a TOML library outside this project, which
`Toml.parse?` and `Toml.Writer.write` stand for. That `render` puts the plain settings in front of
the section, each on a line of its own with single blanks around the sign, and an empty line before
the header, is the layout assumed of that library, and so is that it writes no integer of more than
sixty-three bits.
-/
namespace GuardedStore

open Toml (Node)

/-- What was given for a setting, or its default. -/
def Toml.setting? {α : Type} (read? : Node → Option α) (standard : α) :
    Option Node → Option α
  | none => some standard
  | some node => read? node

namespace AspectConfig

def ofNode? (node : Node) : Option AspectConfig := do
  match ← node.parts? ["locking", "lock_timeout_ms", "audit"] with
  | [locking, timeout, audit] =>
    let standard : AspectConfig := {}
    let locking ← Toml.setting? Node.boolean? standard.locking locking
    let timeout ← Toml.setting? (fun n => n.natural?.map UInt64.ofNat) standard.lockTimeout timeout
    let audit ← Toml.setting? Node.boolean? standard.audit audit
    some ⟨locking, timeout, audit⟩
  | _ => failure

end AspectConfig

namespace StoreConfig

/-- The configuration a well-formed document describes, valid or not. -/
def ofDocument? (s : String) : Option StoreConfig := do
  let fields ← Toml.parse? s
  let standard : StoreConfig := {}
  let name ← Toml.setting? Node.string? standard.name (fields.find? "name")
  let aspects ← Toml.setting? AspectConfig.ofNode? standard.aspects (fields.find? "aspects")
  some ⟨name, aspects⟩

def parse (s : String) : Except ConfigFault StoreConfig := do
  match ofDocument? s with
  | none => throw .unparsable
  | some config =>
    config.aspects.validate
    return config

/-- A part of a path that goes to a directory which is always there. -/
def isStanding (part : String) : Bool :=
  part = "" || part = "." || part = ".."

/-- What there is to read at `path`, where no file exists but one that holds `content`, put there
under that path itself. No directory was made for it: a path that goes on after its first proper
name leads nowhere. -/
def contentAt (path : String) (content : Option ByteArray) : Except ReadFailure ByteArray :=
  if path = "" then .error .notFound
  else
    match (path.splitOn "/").dropWhile isStanding, content with
    | [], _ => .error .isDirectory
    | [_], some bytes => .ok bytes
    | _, _ => .error .notFound

/-- Reads the file at `path`, which holds `content` if it exists. -/
def load (path : String) (content : Option ByteArray) : Except ConfigFault StoreConfig :=
  match contentAt path content with
  | .error cause => .error (.unreadable path cause)
  | .ok bytes =>
    match String.fromUTF8? bytes with
    | none => .error (.unreadable path .notText)
    | some s => parse s

def truth (b : Bool) : String :=
  if b then "true" else "false"

/-- The document that describes the configuration, laid out as the library lays it out. -/
def render (config : StoreConfig) : Except ConfigFault String :=
  if Toml.fits64 config.aspects.lockTimeout.toNat then
    .ok ("name = " ++ String.ofList (Toml.Writer.write config.name.toList) ++
      "\n\n[aspects]\nlocking = " ++ truth config.aspects.locking ++
      "\nlock_timeout_ms = " ++ toString config.aspects.lockTimeout.toNat ++
      "\naudit = " ++ truth config.aspects.audit ++ "\n")
  else .error .unrenderable

/-- A document with every setting at its default and a comment on each. -/
def template : String :=
  "# dmodel data store configuration\n" ++
  "#\n" ++
  "# Store name, used in diagnostics\n" ++
  "name = \"data-store\"\n" ++
  "\n" ++
  "[aspects]\n" ++
  "# Serialize reads and writes of each item with a timed lock (default: true)\n" ++
  "locking = true\n" ++
  "# Milliseconds an access waits for the item lock before it is refused (default: 100)\n" ++
  "lock_timeout_ms = 100\n" ++
  "# Emit an audit event for every guarded access (default: true)\n" ++
  "audit = true\n"

end StoreConfig

end GuardedStore
