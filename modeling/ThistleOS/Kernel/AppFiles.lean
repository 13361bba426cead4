import ThistleOS.CString
import ThistleOS.Kernel.AppStorage
import ThistleOS.Slots
import ThistleOS.Threads

/-!
# The files of the apps

The streams that the apps open below their storage directories. A table, behind a lock, has the slot of
the app that every stream belongs to; the streams themselves are those of the C library.

Each slot runs one call at a time. The calls of different slots run side by side: what a call does while
it has the lock of the table, and each call of the C library, is a step of its own.
-/

namespace ThistleOS.AppFiles

open PowerLoss AppStorage

def maxAppStorageSlots : ℕ := 16

def maxOpenAppFiles : ℕ := 32

def appStorageBase : String := "/spiffs/data/apps"

/-! ### The table -/

structure AppFileOwner where
  stream : ℕ
  slot : ℕ
  deriving DecidableEq

abbrev Table := List (Option AppFileOwner)

def ownedBy (slot stream : ℕ) (entry : Option AppFileOwner) : Bool := entry == some ⟨stream, slot⟩

def registerAppStream (slot stream : ℕ) (files : Table) : Bool × Table :=
  if stream = 0 then (false, files)
  else
    match files.findIdx? Option.isNone with
    | some i => (true, files.set i (some ⟨stream, slot⟩))
    | none => (false, files)

def appOwnsStream (slot stream : ℕ) (files : Table) : Bool :=
  stream != 0 && files.any (ownedBy slot stream)

def takeOwnedStream (slot stream : ℕ) (files : Table) : Bool × Table :=
  if stream = 0 then (false, files)
  else
    match files.findIdx? (ownedBy slot stream) with
    | some i => (true, files.set i none)
    | none => (false, files)

/-- The streams of a slot, in the order of the table. -/
def owned (slot : ℕ) (files : Table) : List ℕ :=
  files.filterMap fun entry => (entry.filter fun owner => owner.slot == slot).map AppFileOwner.stream

/-- What `syscall_clear_app_storage` does while it has the lock of the table. -/
def takeSlot (slot : ℕ) (files : Table) : List ℕ × Table :=
  (owned slot files, files.map fun entry => entry.filter fun owner => owner.slot != slot)

/-- The id that is stored for a slot: the bytes before the first zero. -/
def appStorageId (ids : List (List UInt8)) (slot : ℕ) : Option String := do
  let id ← ids[slot]?
  let length ← id.findIdx? (· == 0)
  String.fromUTF8? ⟨(id.take length).toArray⟩

def validFopenMode (mode : String) : Bool :=
  ["r", "rb", "r+", "rb+", "r+b", "w", "wb", "w+", "wb+", "w+b", "a", "ab", "a+", "ab+", "a+b"].contains
    mode

/-! ### The steps of a call -/

inductive Op
  | appStorageId (slot : ℕ)
  | createParent (path : String)
  | fopen (path mode : String)
  | registerAppStream (slot stream : ℕ)
  | appOwnsStream (slot stream : ℕ)
  | takeOwnedStream (slot stream : ℕ)
  | takeSlot (slot : ℕ)
  | fread (size count stream : ℕ)
  | fwrite (size count stream : ℕ)
  | fclose (stream : ℕ)
  | clearId (slot : ℕ)

/-- `fopen` replies 0 when it fails. -/
def Reply : Op → Type
  | .appStorageId _ => Option String
  | .createParent _ | .registerAppStream .. | .appOwnsStream .. | .takeOwnedStream .. => Bool
  | .fopen .. => ℕ
  | .takeSlot _ => List ℕ
  | .fread .. | .fwrite .. | .fclose _ => Int32
  | .clearId _ => Unit

def steps : Sig := ⟨Op, Reply⟩

def openSandboxedPathWith (appId requested mode base : String)
    (openSink : String → String → Prog steps ℕ) : Prog steps ℕ :=
  if !validFopenMode mode then .pure 0
  else
    match resolveAppStoragePath appId requested base with
    | some path => openSink path mode
    | none => .pure 0

/-- What opens a resolved path. -/
def openSink (resolved mode : String) : Prog steps ℕ :=
  if mode.toList.contains 'w' || mode.toList.contains 'a' then
    .call (.createParent resolved) fun created : Bool =>
      if created then .call (.fopen resolved mode) .pure else .pure 0
  else .call (.fopen resolved mode) .pure

/-- A stream for which the table has no room is closed again. -/
def registerOrClose (slot stream : ℕ) : Prog steps ℕ :=
  if stream = 0 then .pure 0
  else
    .call (.registerAppStream slot stream) fun registered : Bool =>
      if registered then .pure stream else .call (.fclose stream) fun _ => .pure 0

/-- The arguments are the strings behind pointers that the app may pass, or `none`. -/
def thistleFsOpenForSlot (slot : ℕ) (path mode : Option CStr) : Prog steps ℕ :=
  match path.bind CStr.toStr, mode.bind CStr.toStr with
  | some requested, some mode =>
    .call (.appStorageId slot) fun
      | none => .pure 0
      | some appId => do
        let stream ← openSandboxedPathWith appId requested mode appStorageBase openSink
        registerOrClose slot stream
  | _, _ => .pure 0

def thistleFsReadForSlot (slot : ℕ) (bufAllowed : Bool) (size count stream : ℕ) : Prog steps Int32 :=
  if !bufAllowed then .pure (-1)
  else
    .call (.appOwnsStream slot stream) fun owns : Bool =>
      if owns then .call (.fread size count stream) .pure else .pure (-1)

def thistleFsWriteForSlot (slot : ℕ) (bufAllowed : Bool) (size count stream : ℕ) : Prog steps Int32 :=
  if !bufAllowed then .pure (-1)
  else
    .call (.appOwnsStream slot stream) fun owns : Bool =>
      if owns then .call (.fwrite size count stream) .pure else .pure (-1)

def thistleFsCloseForSlot (slot stream : ℕ) : Prog steps Int32 :=
  .call (.takeOwnedStream slot stream) fun taken : Bool =>
    if taken then .call (.fclose stream) .pure else .pure (-1)

def closeAll : List ℕ → Prog steps Unit
  | [] => .pure ()
  | stream :: streams => .call (.fclose stream) fun _ => closeAll streams

def syscallClearAppStorage (slot : ℕ) : Prog steps Unit :=
  .call (.takeSlot slot) fun streams => do
    closeAll streams
    .call (.clearId slot) .pure

/-- The calls of a slot. -/
inductive Call
  | open (path mode : Option CStr)
  | read (bufAllowed : Bool) (size count stream : ℕ)
  | write (bufAllowed : Bool) (size count stream : ℕ)
  | close (stream : ℕ)
  | clear

def body (slot : ℕ) : Call → Prog steps Unit
  | .open path mode => do let _ ← thistleFsOpenForSlot slot path mode
  | .read bufAllowed size count stream => do let _ ← thistleFsReadForSlot slot bufAllowed size count stream
  | .write bufAllowed size count stream => do let _ ← thistleFsWriteForSlot slot bufAllowed size count stream
  | .close stream => do let _ ← thistleFsCloseForSlot slot stream
  | .clear => syscallClearAppStorage slot

/-! ### The table and the C library -/

/-- What the C library is told, by which slot. -/
inductive Event
  | opened (slot stream : ℕ)
  | used (slot stream : ℕ)
  | closed (slot stream : ℕ)
  deriving DecidableEq

/-- The slot that has opened a stream, as long as the stream is open. -/
def holder (log : List Event) (stream : ℕ) : Option ℕ :=
  log.foldl (fun slot event => match event with
    | .opened k s => if s = stream then some k else slot
    | .used _ _ => slot
    | .closed _ s => if s = stream then none else slot) none

structure State where
  files : Table
  ids : List (List UInt8)
  log : List Event

def start (ids : List (List UInt8)) : State := ⟨List.replicate maxOpenAppFiles none, ids, []⟩

/-- A call of the C library goes to the log. A stream that `fopen` returns is not open. -/
def system : Threads.Shared steps ℕ State where
  Perform slot
    | .appStorageId k, s, r, s' => r = appStorageId s.ids k ∧ s' = s
    | .createParent _, s, _, s' => s' = s
    | .fopen _ _, s, r, s' =>
      r = (0 : ℕ) ∧ s' = s ∨
        r ≠ (0 : ℕ) ∧ holder s.log r = none ∧ s' = { s with log := s.log ++ [.opened slot r] }
    | .registerAppStream k stream, s, r, s' =>
      s' = { s with files := (registerAppStream k stream s.files).2 } ∧
        r = (registerAppStream k stream s.files).1
    | .appOwnsStream k stream, s, r, s' => r = appOwnsStream k stream s.files ∧ s' = s
    | .takeOwnedStream k stream, s, r, s' =>
      s' = { s with files := (takeOwnedStream k stream s.files).2 } ∧
        r = (takeOwnedStream k stream s.files).1
    | .takeSlot k, s, r, s' =>
      s' = { s with files := (takeSlot k s.files).2 } ∧ r = (takeSlot k s.files).1
    | .fread _ _ stream, s, _, s' => s' = { s with log := s.log ++ [.used slot stream] }
    | .fwrite _ _ stream, s, _, s' => s' = { s with log := s.log ++ [.used slot stream] }
    | .fclose stream, s, _, s' => s' = { s with log := s.log ++ [.closed slot stream] }
    | .clearId k, s, _, s' => s' = { s with ids := s.ids.set k (List.replicate 64 0) }

abbrev Config := Threads.Config steps ℕ Call State

def Step : ℕ → Config → Config → Prop := Threads.Step system body

def Reachable (ids : List (List UInt8)) : Config → Prop := Threads.Reachable system body (start ids)

end ThistleOS.AppFiles
