-- The managed projects and the active workspace (`library.rs`, `commands/workspace/mod.rs`): the
-- commands create, open, import and delete, and a restart. Each command runs alone, and at each of
-- its steps the operating system or SQLite can fail.
import Bbcom.WorkspaceService

open bbcom.js bbcom.workspace

namespace bbcom.workspace_manager

/-! ## Ids and files -/

def isHexDigit (c : Char) : Bool := ('0' ≤ c && c ≤ '9') || ('a' ≤ c && c ≤ 'f')

/-- What `WorkspaceUuid::parse` accepts. A character that is not ASCII has no byte that passes. -/
def isWorkspaceUuid (value : String) : Bool :=
  let characters := value.toList
  characters.length == 36 &&
    characters.zipIdx.all (fun (c, index) =>
      if index == 8 || index == 13 || index == 18 || index == 23 then c == '-' else isHexDigit c) &&
    !(characters.filter (· != '-')).all (· == '0')

structure WorkspaceUuid where
  value : String
  valid : isWorkspaceUuid value = true
  deriving DecidableEq

def parseUuid (value : String) : Option WorkspaceUuid :=
  if h : isWorkspaceUuid value = true then some ⟨value, h⟩ else none

/-- `char::is_whitespace`. -/
def isWhiteSpace (c : Char) : Bool :=
  let n := c.toNat
  (0x9 ≤ n && n ≤ 0xd) || n == 0x20 || n == 0x85 || n == 0xa0 || n == 0x1680 ||
    (0x2000 ≤ n && n ≤ 0x200a) || n == 0x2028 || n == 0x2029 || n == 0x202f || n == 0x205f ||
    n == 0x3000

/-- `str::trim`. -/
def trim (text : String) : String :=
  String.ofList
    ((text.toList.dropWhile isWhiteSpace).reverse.dropWhile isWhiteSpace).reverse

/-- The header says which workspace the database is of. The remains of a creation that failed may
have none. -/
structure ProjectFile where
  workspaceId : Option String
  deriving DecidableEq

/-- A service has the file of its project open. -/
structure Service where
  path : WorkspaceUuid
  deriving DecidableEq

/-- `activated` is the workspace whose activation last succeeded, and `lost` whether it has since
been deleted, or been missing or closed to a restart. Both are for the record. -/
structure WorkspaceManager where
  files : WorkspaceUuid → Option ProjectFile := fun _ => none
  marker : Option String := none
  active : Option Service := none
  activated : Option WorkspaceUuid := none
  lost : Bool := false

def MAX_ACTIVE_WORKSPACE_FILE_BYTES : Nat := 256

/-! ## Failures -/

/-- The steps that can fail. A creation has up to four attempts. -/
inductive FsStep
  | lock | currentTime | randomUuid (attempt : Nat) | createDir (attempt : Nat)
  | reserveFile (attempt : Nat) | createSchema (attempt : Nat) | insertMeta (attempt : Nat)
  | databaseSize (attempt : Nat) | removeReserved (attempt : Nat)
  | openProject | summary | header
  | createStaged | writeStaged | syncStaged | replaceMarker | syncRoot
  | activeSummary | removeProject | reopenProject | removeMarker
  | beginImport | copySource | validateStaged | beforeCommit | renameStaged
  | openMarker | markerMetadata | readMarker
  deriving DecidableEq

inductive CommandError
  | invalidInput (field : String)
  | alreadyExists
  | busy
  | corrupt
  | failed (step : FsStep)
  deriving DecidableEq

/-- How the steps of one command end, the random ids that it draws, and the header of the project
that it imports. -/
structure Io where
  ok : FsStep → Bool
  now : UInt64
  ids : Nat → WorkspaceUuid
  source : String

abbrev Outcome (α : Type) := Except CommandError α

def Io.attempt (io : Io) (step : FsStep) : Outcome Unit :=
  if io.ok step then .ok () else .error (.failed step)

/-! ## The library -/

namespace WorkspaceManager

variable (s : WorkspaceManager)

def contains (id : WorkspaceUuid) : Bool := (s.files id).isSome

def setFile (id : WorkspaceUuid) (file : Option ProjectFile) : WorkspaceManager :=
  { s with files := Function.update s.files id file }

/-- `WorkspaceService::create`. What a failure leaves is removed, if that succeeds. -/
def createProject (io : Io) (attempt : Nat) (id : WorkspaceUuid) (name : String) :
    Outcome Service × WorkspaceManager :=
  match createWorkspace ⟨id.value, name, io.now⟩ with
  | .error (.invalidInput field) => (.error (.invalidInput field), s)
  | .error _ => (.error .corrupt, s)
  | .ok _ =>
    if s.contains id then (.error .alreadyExists, s)
    else if !io.ok (.createDir attempt) then (.error (.failed (.createDir attempt)), s)
    else if !io.ok (.reserveFile attempt) then (.error (.failed (.reserveFile attempt)), s)
    else
      let failed (step : FsStep) (left : ProjectFile) : Outcome Service × WorkspaceManager :=
        (.error (.failed step), if io.ok (.removeReserved attempt) then s else s.setFile id left)
      if !io.ok (.createSchema attempt) then failed (.createSchema attempt) ⟨none⟩
      else if !io.ok (.insertMeta attempt) then failed (.insertMeta attempt) ⟨none⟩
      else if !io.ok (.databaseSize attempt) then failed (.databaseSize attempt) ⟨some id.value⟩
      else (.ok ⟨id⟩, s.setFile id (some ⟨some id.value⟩))

/-- `WorkspaceService::open`. -/
def openProject (io : Io) (step : FsStep) (id : WorkspaceUuid) : Outcome Service :=
  match s.files id with
  | none => .error (.invalidInput "workspaceId")
  | some file =>
    if file.workspaceId.isNone then .error .corrupt
    else if io.ok step then .ok ⟨id⟩ else .error (.failed step)

/-- The workspace of the header. -/
def summary (io : Io) (step : FsStep) (service : Service) : Outcome String :=
  if io.ok step then
    match (s.files service.path).bind ProjectFile.workspaceId with
    | none => .error .corrupt
    | some workspaceId => .ok workspaceId
  else .error (.failed step)

/-! ## The marker -/

/-- `persist_active_workspace`, up to its directory: the marker, if it is replaced. -/
def persistActive (io : Io) (id : WorkspaceUuid) : Outcome Unit × WorkspaceManager :=
  if !io.ok .createStaged then (.error (.failed .createStaged), s)
  else if !io.ok .writeStaged then (.error (.failed .writeStaged), s)
  else if !io.ok .syncStaged then (.error (.failed .syncStaged), s)
  else if !io.ok .replaceMarker then (.error (.failed .replaceMarker), s)
  else
    let s := { s with marker := some (id.value ++ "\n") }
    (io.attempt .syncRoot, s)

def commitActive (io : Io) (workspaceId : String) (service : Service) :
    Outcome Unit × WorkspaceManager :=
  match parseUuid workspaceId with
  | none => (.error (.invalidInput "workspaceId"), s)
  | some id =>
    if !io.ok .lock then (.error .busy, s)
    else if !s.contains id then (.error (.invalidInput "workspaceId"), s)
    else
      match s.persistActive io id with
      | (.error error, s) => (.error error, s)
      | (.ok (), s) =>
        (.ok (), { s with active := some service, activated := some id, lost := false })

def removeMarker (io : Io) : WorkspaceManager :=
  if io.ok .removeMarker then { s with marker := none } else s

/-! ## Commands -/

/-- The attempts of `create_workspace` from `attempt` on. -/
def createAttempts (io : Io) (name : String) :
    (left attempt : Nat) → Outcome (Option Service) × WorkspaceManager
  | 0, _ => (.ok none, s)
  | left + 1, attempt =>
    if !io.ok (.randomUuid attempt) then (.error (.failed (.randomUuid attempt)), s)
    else
      match s.createProject io attempt (io.ids attempt) name with
      | (.error .alreadyExists, _) => createAttempts io name left (attempt + 1)
      | (.error error, s) => (.error error, s)
      | (.ok service, s) => (.ok (some service), s)

/-- Behind the open project of a create or an open. -/
def activate (io : Io) (service : Service) : Outcome Unit × WorkspaceManager :=
  match s.summary io .summary service with
  | .error error => (.error error, s)
  | .ok workspaceId =>
    match io.attempt .header with
    | .error error => (.error error, s)
    | .ok () => s.commitActive io workspaceId service

def createCommand (io : Io) (name : String) : Outcome Unit × WorkspaceManager :=
  if !io.ok .currentTime then (.error (.failed .currentTime), s)
  else
    match s.createAttempts io name 4 0 with
    | (.error error, s) => (.error error, s)
    | (.ok none, s) => (.error .busy, s)
    | (.ok (some service), s) => s.activate io service

def openCommand (io : Io) (workspaceId : String) : Outcome Unit × WorkspaceManager :=
  match parseUuid workspaceId with
  | none => (.error (.invalidInput "workspaceId"), s)
  | some id =>
    match s.openProject io .openProject id with
    | .error error => (.error error, s)
    | .ok service => s.activate io service

/-- `import_plaintext`: the staged copy is renamed to the file of its workspace. -/
def importPlaintext (io : Io) : Outcome WorkspaceUuid × WorkspaceManager :=
  if !io.ok .copySource then (.error (.failed .copySource), s)
  else if !io.ok .validateStaged then (.error (.failed .validateStaged), s)
  else
    match parseUuid io.source with
    | none => (.error (.invalidInput "workspaceId"), s)
    | some id =>
      if !io.ok .beforeCommit then (.error (.failed .beforeCommit), s)
      else if s.contains id then (.error .alreadyExists, s)
      else if !io.ok .renameStaged then (.error (.failed .renameStaged), s)
      else (.ok id, s.setFile id (some ⟨some id.value⟩))

def importCommand (io : Io) : Outcome Unit × WorkspaceManager :=
  if !io.ok .beginImport then (.error (.failed .beginImport), s)
  else
    match s.importPlaintext io with
    | (.error error, s) => (.error error, s)
    | (.ok id, s) =>
      match s.openProject io .openProject id with
      | .error error => (.error error, s)
      | .ok service =>
        match s.summary io .summary service with
        | .error error => (.error error, s)
        | .ok _ => (.ok (), s)

/-- `ProjectLibrary::delete_project`. -/
def deleteProject (io : Io) (id : WorkspaceUuid) : Outcome Unit × WorkspaceManager :=
  if !s.contains id then (.error (.invalidInput "workspaceId"), s)
  else if !io.ok .removeProject then (.error (.failed .removeProject), s)
  else
    (.ok (), { s.setFile id none with lost := s.lost || decide (s.activated = some id) })

def deleteCommand (io : Io) (workspaceId : String) : Outcome Unit × WorkspaceManager :=
  match parseUuid workspaceId with
  | none => (.error (.invalidInput "workspaceId"), s)
  | some id =>
    if !io.ok .lock then (.error .busy, s)
    else
      match s.active.mapM (s.summary io .activeSummary) with
      | .error error => (.error error, s)
      | .ok activeWorkspaceId =>
        let deletesActive := decide (activeWorkspaceId = some workspaceId)
        let s := if deletesActive then { s with active := none } else s
        match s.deleteProject io id with
        | (.error error, s) =>
          if deletesActive && s.contains id then
            (.error error, { s with active := (s.openProject io .reopenProject id).toOption })
          else (.error error, s)
        | (.ok (), s) => (.ok (), if deletesActive then s.removeMarker io else s)

/-! ## Restarts -/

/-- `read_active_workspace`. -/
def readActive (io : Io) : Option Service × WorkspaceManager :=
  match s.marker with
  | none => (none, s)
  | some encoded =>
    if !io.ok .openMarker || !io.ok .markerMetadata ||
        decide (MAX_ACTIVE_WORKSPACE_FILE_BYTES < byteLength encoded) ||
        !io.ok .readMarker then (none, s.removeMarker io)
    else
      match parseUuid (trim encoded) with
      | none => (none, s.removeMarker io)
      | some id =>
        match s.openProject io .openProject id with
        | .error _ => (none, s.removeMarker io)
        | .ok service => (some service, s)

/-- The process ends, and `WorkspaceManager::open` brings it up again. -/
def restart (io : Io) : WorkspaceManager :=
  let (active, s) := s.readActive io
  { s with active, lost := s.lost || active.isNone }

end WorkspaceManager

/-! ## Events -/

inductive WorkspaceCommand
  | createWorkspace (name : String)
  | openWorkspace (workspaceId : String)
  | importProject
  | deleteWorkspace (workspaceId : String)
  deriving DecidableEq

inductive WorkspaceEvent
  | command (command : WorkspaceCommand) (io : Io)
  | restart (io : Io)

def runCommand (s : WorkspaceManager) (io : Io) : WorkspaceCommand → Outcome Unit × WorkspaceManager
  | .createWorkspace name => s.createCommand io name
  | .openWorkspace workspaceId => s.openCommand io workspaceId
  | .importProject => s.importCommand io
  | .deleteWorkspace workspaceId => s.deleteCommand io workspaceId

def step (s : WorkspaceManager) : WorkspaceEvent → WorkspaceManager
  | .command command io => (runCommand s io command).2
  | .restart io => s.restart io

end bbcom.workspace_manager
