import KeaDhcp.Dhcpsrv.LeaseFile

/-!
# Lease file cleanup

The files that `src/lib/dhcpsrv/memfile_lease_mgr.cc` (`loadLeasesFromFiles`, `lfcExecute`) and
`src/bin/lfc/lfc_controller.cc` (`launch`, `processLeases`, `fileRotate`) move around, each as the
list of its rows. A step of the server or of the `kea-lfc` process is one look at the directory, one
row, or one file that is created, renamed or removed; both may crash between two steps. The PID file
is modelled by its purpose, that at most one `kea-lfc` is past its start.
-/

namespace Dhcp

open Infra MultiIndex

variable {α κ ι : Type} [DecidableEq κ] {S : IndexSpec α κ ι}

/-- The files, with the names that the source gives to their suffixes. -/
structure LeaseFiles (α : Type) where
  current : Option (List α)
  /-- `FILE_INPUT`, ".1". -/
  input : Option (List α)
  /-- `FILE_PREVIOUS`, ".2". -/
  previous : Option (List α)
  /-- `FILE_OUTPUT`, ".output". -/
  output : Option (List α)
  /-- `FILE_FINISH`, ".completed". -/
  finish : Option (List α)
  deriving DecidableEq

def LeaseFileFormat.loadLeasesFromFiles (F : LeaseFileFormat S) (files : LeaseFiles α) :
    MultiIndex S :=
  let storage :=
    match files.finish with
    | some rows => F.load empty rows
    | none => F.load (F.load empty (files.previous.getD [])) (files.input.getD [])
  F.load storage (files.current.getD [])

namespace Lfc

/-! ## The two processes -/

/-- Where the server is in `lfcExecute`. -/
inductive ServerPhase where
  /-- Outside of it. -/
  | running
  | checkInput
  | rename
  | reopen (doLfc : Bool)
  | execute
  | down
  deriving DecidableEq

/-- The next thing that `kea-lfc` does. -/
inductive LfcPhase (S : IndexSpec α κ ι) where
  | checkFinish
  | loadPrevious
  | loadInput (storage : MultiIndex S)
  | openOutput (storage : MultiIndex S)
  /-- The rows that are still to be written, and then the rename of the output file. -/
  | write (rows : List α)
  | removePrevious
  | removeInput
  | renameFinish

structure System (S : IndexSpec α κ ι) where
  files : LeaseFiles α
  /-- All rows that the server has appended. -/
  history : List α
  server : ServerPhase
  /-- Processes that have been started and have not looked at the PID file yet. -/
  spawned : Nat
  lfc : Option (LfcPhase S)

namespace System

/-- The first start of a server. -/
def init : System S :=
  { files := { current := some [], input := none, previous := none, output := none, finish := none }
    history := []
    server := .running
    spawned := 0
    lfc := none }

/-- The server appends a row to the file that it has open. -/
def append (row : α) (s : System S) : System S :=
  match s.server, s.files.current with
  | .running, some rows =>
    { s with
      files := { s.files with current := some (rows ++ [row]) }
      history := s.history ++ [row] }
  | _, _ => s

/-- A step of `lfcExecute`. -/
def lfcExecute (s : System S) : System S :=
  match s.server with
  | .running => { s with server := if s.files.finish.isSome then .execute else .checkInput }
  | .checkInput => { s with server := if s.files.input.isSome then .execute else .rename }
  | .rename =>
    match s.files.current with
    | some rows =>
      { s with
        files := { s.files with input := some rows, current := none }
        server := .reopen true }
    | none => { s with server := .reopen false }
  | .reopen doLfc =>
    { s with
      files := { s.files with current := some (s.files.current.getD []) }
      server := if doLfc then .execute else .running }
  | .execute => { s with spawned := s.spawned + 1, server := .running }
  | .down => s

/-- The server starts and loads the leases, which it refuses to do while `kea-lfc` runs. -/
def start (s : System S) : System S :=
  match s.server, s.lfc with
  | .down, none =>
    { s with
      files := { s.files with current := some (s.files.current.getD []) }
      server := .running }
  | _, _ => s

/-- A process that was started looks at the PID file, and ends if another one runs. -/
def launch (s : System S) : System S :=
  match s.spawned, s.lfc with
  | 0, _ => s
  | n + 1, some _ => { s with spawned := n }
  | n + 1, none => { s with spawned := n, lfc := some .checkFinish }

/-- A step of `kea-lfc` behind the PID file. -/
def lfcStep (F : LeaseFileFormat S) (s : System S) : System S :=
  match s.lfc with
  | none => s
  | some .checkFinish =>
    { s with lfc := some (if s.files.finish.isSome then .removePrevious else .loadPrevious) }
  | some .loadPrevious =>
    { s with lfc := some (.loadInput (F.load empty (s.files.previous.getD []))) }
  | some (.loadInput storage) =>
    { s with lfc := some (.openOutput (F.load storage (s.files.input.getD []))) }
  | some (.openOutput storage) =>
    -- A file that is there is opened and appended to.
    { s with
      files := { s.files with output := some (s.files.output.getD []) }
      lfc := some (.write storage.rows) }
  | some (.write (row :: rows)) =>
    { s with
      files := { s.files with output := s.files.output.map (· ++ [row]) }
      lfc := some (.write rows) }
  | some (.write []) =>
    match s.files.output with
    | some rows =>
      { s with
        files := { s.files with output := none, finish := some rows }
        lfc := some .removePrevious }
    | none => { s with lfc := none }
  | some .removePrevious =>
    { s with files := { s.files with previous := none }, lfc := some .removeInput }
  | some .removeInput =>
    { s with files := { s.files with input := none }, lfc := some .renameFinish }
  | some .renameFinish =>
    match s.files.finish with
    | some rows =>
      { s with files := { s.files with finish := none, previous := some rows }, lfc := none }
    | none => { s with lfc := none }

end System

/-! ## Runs -/

inductive Event (α : Type) where
  | append (row : α)
  | lfcExecute
  | serverCrash
  | serverStart
  | launch
  | lfcStep
  | lfcCrash

/-- A `kea-lfc` that crashed may be started again. -/
def step (F : LeaseFileFormat S) : Event α → System S → System S
  | .append row, s => s.append row
  | .lfcExecute, s => s.lfcExecute
  | .serverCrash, s => { s with server := .down }
  | .serverStart, s => s.start
  | .launch, s => s.launch
  | .lfcStep, s => s.lfcStep F
  | .lfcCrash, s => if s.lfc.isSome then { s with lfc := none, spawned := s.spawned + 1 } else s

end Lfc

end Dhcp
