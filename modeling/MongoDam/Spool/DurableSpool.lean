import MongoDam.Lib.FileSystem
import Mathlib.Data.String.Basic

/-!
# The durable spool

Items are files named by the SHA-256 digest of their contents, in the root of the
spool or in its quarantine. An item is written to a temporary file, synced, and
moved to its name. Every call is a program over the file system, so that it can be
cut short between any two operations. The root and the quarantine exist: `open`
creates them.
-/

namespace MongoDam.Spool

open Lib

/-- The directories of a spool. -/
inductive Place where
  | root
  | quarantine
  deriving DecidableEq, Repr

/-- The names of files: `<id>.json` and `.<id>.tmp`. -/
inductive Name where
  | item (id : String)
  | temporary (id : String)
  deriving DecidableEq, Repr

/-- The id of a name with the extension `json`. A name that only consists of an extension
has none. -/
def Name.itemId? : Name → Option String
  | item id => if id = "" then none else some id
  | temporary _ => none

/-- 64 hexadecimal digits. -/
def isDigestText (id : String) : Bool :=
  (toUtf8 id).length = 64 ∧ id.toList.all fun c =>
    ('0' ≤ c ∧ c ≤ '9') ∨ ('a' ≤ c ∧ c ≤ 'f') ∨ ('A' ≤ c ∧ c ≤ 'F')

inductive SpoolError where
  | capacityExceeded (currentBytes incomingBytes maxBytes : ℕ)
  | io (error : IoError)
  deriving DecidableEq, Repr

/-- An item as `pending` lists it. Its path is the one in the root. -/
structure PendingItem where
  id : String
  bytes : ℕ
  deriving DecidableEq, Repr

structure SpoolStats where
  items : ℕ := 0
  bytes : ℕ := 0
  deriving DecidableEq, Repr

/-- A call in progress: a program over the file system that may fail. -/
def Action (α : Type) : Type :=
  Program (FileOp Place Name) (fun op => Except IoError op.Value) (Except SpoolError α)

namespace Action

/-- Go on with the value, or stop at the error. -/
def andThen (action : Action α) (f : α → Action β) : Action β :=
  Program.bind action fun
    | .ok value => f value
    | .error error => .done (.error error)

instance : Monad Action where
  pure value := .done (.ok value)
  bind := andThen

/-- Fail with an error. -/
def fail (error : SpoolError) : Action α := .done (.error error)

end Action

/-- Perform a file operation and pass its error on. -/
def io (op : FileOp Place Name) : Action op.Value :=
  .perform op fun result => .done (result.mapError .io)

/-- Perform a file operation and return how it ended. -/
def attempt (op : FileOp Place Name) : Action (Except IoError op.Value) :=
  .perform op fun result => .done (.ok result)

/-- `Path::exists`: whether the metadata can be read. -/
def pathExists (path : Place × Name) : Action Bool := do
  let result ← attempt (.metadata path)
  return result.isOk

/-- Add an entry to the statistics when it is an item. -/
def countEntry (stats : SpoolStats) (entry : Name × ℕ) : SpoolStats :=
  match entry.1.itemId? with
  | some _ =>
    { items := saturatingAdd stats.items 1, bytes := saturatingAdd stats.bytes entry.2 }
  | none => stats

def directoryStats (place : Place) : Action SpoolStats := do
  let entries ← io (.readDir place)
  return entries.foldl countEntry {}

def stats : Action SpoolStats := directoryStats .root

def quarantineStats : Action SpoolStats := directoryStats .quarantine

/-- The items of a listing, by increasing id. -/
def itemsOf (entries : List (Name × ℕ)) : List PendingItem :=
  (entries.filterMap fun entry => entry.1.itemId?.map fun id => { id, bytes := entry.2 }).mergeSort
    fun left right => left.id ≤ right.id

def pending : Action (List PendingItem) := do
  let entries ← io (.readDir .root)
  return itemsOf entries

def PendingItem.path (item : PendingItem) : Place × Name := (.root, .item item.id)

def read (item : PendingItem) : Action Bytes := io (.readFile item.path)

/-- Remove the item from the root; it may be gone already. -/
def acknowledge (item : PendingItem) : Action Unit := do
  match ← attempt (.removeFile item.path) with
  | .ok _ => io (.syncDir .root)
  | .error .notFound => return ()
  | .error error => .fail (.io error)

/-- Move the item to the quarantine. -/
def quarantine (item : PendingItem) : Action Unit := do
  let destination := (Place.quarantine, Name.item item.id)
  if ← pathExists destination then acknowledge item
  else
    match ← attempt (.rename item.path destination) with
    | .ok _ =>
      let _ ← io (.syncDir .root)
      io (.syncDir .quarantine)
    | .error .notFound =>
      if ← pathExists destination then return () else .fail (.io .notFound)
    | .error error => .fail (.io error)

section Digests

variable (sha256 : Digest32)

/-- The id of a body. -/
def bodyId (body : Bytes) : String := encodeHex (sha256.digest body)

/-- Write a body to its temporary file and move it to its name. -/
def store (id : String) (body : Bytes) : Action String := do
  let file ← io (.createNew (.root, .temporary id))
  let _ ← io (.writeAll file body)
  let _ ← io (.syncFile file)
  let _ ← io (.rename (.root, .temporary id) (.root, .item id))
  let _ ← io (.syncDir .root)
  return id

def enqueue (maxBytes : ℕ) (body : Bytes) : Action String := do
  let id := bodyId sha256 body
  if ← pathExists (.root, .item id) then return id
  else if ← pathExists (.quarantine, .item id) then return id
  else
    let pending ← directoryStats .root
    let quarantined ← directoryStats .quarantine
    let currentBytes := saturatingAdd pending.bytes quarantined.bytes
    if maxBytes < saturatingAdd currentBytes body.length then
      .fail (.capacityExceeded currentBytes body.length maxBytes)
    else store id body

/-- Bring one temporary file to an end: to its name when its contents are complete and the
item is not there, and away otherwise. -/
def recoverTemporary (id : String) : Action Unit := do
  if ← pathExists (.root, .item id) then io (.removeFile (.root, .temporary id))
  else if ← pathExists (.quarantine, .item id) then io (.removeFile (.root, .temporary id))
  else
    let body ← io (.readFile (.root, .temporary id))
    if bodyId sha256 body = id then io (.rename (.root, .temporary id) (.root, .item id))
    else io (.removeFile (.root, .temporary id))

/-- Go over a listing of the root; the result tells whether anything was changed. -/
def recoverEntries : List (Name × ℕ) → Bool → Action Bool
  | [], changed => pure changed
  | (.temporary id, _) :: rest, changed =>
    if isDigestText id then do
      let _ ← recoverTemporary sha256 id
      recoverEntries rest true
    else recoverEntries rest changed
  | (.item _, _) :: rest, changed => recoverEntries rest changed

def recoverTemporaryFiles : Action Unit := do
  let entries ← io (.readDir .root)
  let changed ← recoverEntries sha256 entries false
  if changed then io (.syncDir .root) else return ()

/-- `DurableSpool::open` on directories that exist. -/
def openSpool : Action Unit := recoverTemporaryFiles sha256

end Digests

end MongoDam.Spool
