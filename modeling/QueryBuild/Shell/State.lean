import QueryBuild.Files.Access
import QueryBuild.Shell.Command
import QueryBuild.Text.Octets
/-!
# The state of a shell

What a running shell knows: the files, where its descriptors lead, its variables and functions,
and how the last command ended.
-/

namespace QueryBuild.Shell

/-- Where a descriptor leads. -/
inductive Channel where
  /-- Nothing can be read, and what is written is gone. -/
  | nothing
  /-- A stream that other programs share. -/
  | stream (id : Nat)
  /-- The end of a file. -/
  | file (location : Location)
deriving DecidableEq, Inhabited

structure Variable where
  value : Octets
  /-- Whether programs get to see it. -/
  exported : Bool
deriving DecidableEq, Inhabited

structure State where
  files : FileSystem
  /-- What is left to read from streams. -/
  inputs : List (Nat × Octets)
  outputs : List (Nat × ByteArray)
  channels : List (Nat × Channel)
  nextStream : Nat
  bindings : List (String × Variable)
  functions : List (String × Command)
  script : Octets
  arguments : List Octets
  status : Nat
  /-- How the last script ended of which the output was taken. -/
  outputStatus : Nat
  line : Nat
  documents : List (Nat × Word)
  nextDocument : Nat
  process : Nat
  nextProcess : Nat
  /-- Whether the shell ends with the first command that fails. -/
  stopOnFailure : Bool
  /-- Whether a parameter without a value is an error. -/
  stopOnUnset : Bool
  /-- Whether commands are shown before they run. -/
  trace : Bool
  /-- Whether something else depends on how the running command ends. -/
  tested : Bool
  /-- What is done when a signal arrives, or, for zero, at the end. -/
  traps : List (Nat × Octets)
  /-- The variables that the running function hides. -/
  hidden : List (String × Option Variable)

instance : Inhabited State :=
  ⟨{ files := default, inputs := [], outputs := [], channels := [], nextStream := 3,
     bindings := [], functions := [], script := [], arguments := [], status := 0,
     outputStatus := 0, line := 1,
     documents := [], nextDocument := 0, process := 100, nextProcess := 101,
     stopOnFailure := false, stopOnUnset := false, trace := false, tested := false, traps := [],
     hidden := [] }⟩

/-- Why the commands that follow do not run. -/
inductive Halt where
  /-- So many loops end. -/
  | breaking (loops : Nat)
  /-- So many loops end, and the one around them goes on with its next round. -/
  | continuing (loops : Nat)
  | returning
  | exiting
  | killed (signal : Nat)
deriving DecidableEq, Inhabited

abbrev Act := ExceptT Halt (StateM State)

namespace State

def setEntry {α β : Type} [BEq α] (key : α) (value : β) (table : List (α × β)) : List (α × β) :=
  (key, value) :: table.filter fun entry => !(entry.1 == key)

def value? (s : State) (name : String) : Option Octets :=
  (s.bindings.lookup name).map Variable.value

def setValue (s : State) (name : String) (value : Octets) : State :=
  let exported := ((s.bindings.lookup name).map Variable.exported).getD false
  { s with bindings := setEntry name ⟨value, exported⟩ s.bindings }

/-- The state with the value of a variable that programs get to see. -/
def exportValue (s : State) (name : String) (value : Octets) : State :=
  { s with bindings := setEntry name ⟨value, true⟩ s.bindings }

def environment (s : State) : List (String × Octets) :=
  s.bindings.filterMap fun (name, v) => if v.exported then some (name, v.value) else none

def unread (s : State) (descriptor : Nat) : Octets :=
  match s.channels.lookup descriptor with
  | some (.stream id) => (s.inputs.lookup id).getD []
  | _ => []

def setUnread (s : State) (descriptor : Nat) (rest : Octets) : State :=
  match s.channels.lookup descriptor with
  | some (.stream id) => { s with inputs := setEntry id rest s.inputs }
  | _ => s

def write (s : State) (descriptor : Nat) (text : Octets) : State :=
  match s.channels.lookup descriptor with
  | some (.stream id) =>
    let before := (s.outputs.lookup id).getD .empty
    { s with outputs := setEntry id (before ++ Octets.toBytes text) s.outputs }
  | some (.file location) =>
    match s.files.get? location with
    | some (.file before _ executable) =>
      { s with
        files := s.files.put location
          (.file (before ++ Octets.toBytes text) s.files.now executable) }
    | _ => s
  | _ => s

def setChannel (s : State) (descriptor : Nat) (channel : Channel) : State :=
  { s with channels := setEntry descriptor channel s.channels }

/-- Makes a new stream from which a text can be read. -/
def openText (s : State) (descriptor : Nat) (text : Octets) : State :=
  let id := s.nextStream
  { s with
    nextStream := id + 1
    inputs := (id, text) :: s.inputs
    channels := setEntry descriptor (.stream id) s.channels }

/-- The state after another shell has run: what both share stays as the other one left it, and
everything else is as before. -/
def resume (before after : State) : State :=
  { before with
    files := { after.files with workingDirectory := before.files.workingDirectory }
    inputs := after.inputs
    outputs := after.outputs
    nextStream := after.nextStream
    documents := after.documents
    nextDocument := after.nextDocument
    nextProcess := after.nextProcess
    status := after.status }

/-- The characters that separate fields. -/
def separators (s : State) : Octets :=
  (s.value? "IFS").getD [' ', '\t', '\n']

end State

end QueryBuild.Shell
