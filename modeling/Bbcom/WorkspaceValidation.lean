-- The renderer's checks of what goes to the native workspace and of what comes back
-- (`validation.ts`): identifiers, names, revisions, the layout, and the command that becomes a
-- mutation with its sequence number.
import Bbcom.WorkspaceContracts

open bbcom.js bbcom.contracts

namespace bbcom.write_epoch

/-! ## Values of the renderer -/

inductive JsValue
  | null
  | undefined
  | bool (value : Bool)
  | number (value : JsNumber)
  | string (text : String)
  | array (items : List JsValue)
  | object (fields : List (String × JsValue))

/-- An object literal as a writer. -/
def objectLiteral : Writer JsValue where
  null := .null
  bool := .bool
  number n := .number (.finite n.toNat)
  string := .string
  array := .array
  object := .object

/-- `value[key]`. -/
def JsValue.property : JsValue → String → JsValue
  | .object fields, key => ((fields.find? (·.1 = key)).map Prod.snd).getD .undefined
  | _, _ => .undefined

/-! ## Texts -/

/-- The characters that `trim` takes away at either end. -/
def isTrimmed (c : Char) : Bool :=
  c.toNat ∈ [0x09, 0x0A, 0x0B, 0x0C, 0x0D, 0x20, 0xA0, 0x1680, 0x2028, 0x2029, 0x202F, 0x205F,
    0x3000, 0xFEFF] || (0x2000 ≤ c.toNat && c.toNat ≤ 0x200A)

def trim (text : String) : String :=
  String.ofList ((text.toList.dropWhile isTrimmed).rdropWhile isTrimmed)

/-- `text.length`, in units of UTF-16. -/
def utf16Length (text : String) : Nat :=
  (text.toList.map fun c => if c.toNat < 0x10000 then 1 else 2).sum

/-- `toLowerCase`, as far as it ends in an ASCII letter: the Kelvin sign is the only such
character outside ASCII. -/
def toLowerCase (text : List Char) : List Char :=
  text.map fun c => if c.toNat = 0x212A then 'k' else c.toLower

def includes (text : List Char) (search : String) : Bool := decide (search.toList <:+: text)

/-- `/^file:/i`. -/
def isFileLocation (text : List Char) : Bool :=
  "file:".toList.isPrefixOf (text.map Char.toLower)

/-- `WINDOWS_DRIVE_PATTERN`. -/
def isWindowsDrive : List Char → Bool
  | a :: b :: c :: _ => a.isAlpha && b = ':' && (c = '\\' || c = '/')
  | _ => false

/-! ## Identifiers, names and revisions

What throws is `none`. -/

/-- `ID_PATTERN`. -/
def isOpaqueId (text : List Char) : Bool :=
  match text with
  | [] => false
  | first :: rest =>
    first.isAlphanum && rest.length ≤ 127 &&
      rest.all fun c => c.isAlphanum || c = '.' || c = '_' || c = ':' || c = '-'

def validateOpaqueId (value : String) : Option String :=
  let normalized := trim value
  if isOpaqueId normalized.toList then some normalized else none

def validateProjectName (value : String) : Option String :=
  let normalized := trim value
  if normalized.toList = [] || 256 < utf16Length normalized || includes normalized.toList "/" ||
    includes normalized.toList "\\" || isFileLocation normalized.toList ||
    isWindowsDrive normalized.toList
  then none else some normalized

/-- `Number.MAX_SAFE_INTEGER`. -/
def MAX_SAFE_INTEGER : Nat := 2 ^ 53 - 1

def validateRevision (value : JsNumber) : Option Nat := integerBetween value 0 MAX_SAFE_INTEGER

/-! ## Errors of the port -/

/-- A rejection, with what a thrown value has of the fields of an `IpcError`. -/
structure PortError where
  code : Option String
  messageKey : Option String

def ERROR_CODES : List String :=
  ["BUSY", "RATE_LIMITED", "CANCELLED", "TIMEOUT", "INVALID_INPUT", "LIMIT_EXCEEDED",
    "SECURITY_DENIED", "SERIAL_DISCONNECTED", "SERIAL_QUEUE_FULL", "SERIAL_PARTIAL_WRITE",
    "IO_PERMISSION_DENIED", "IO_DISK_FULL", "EXPORT_REPLACE_FAILED", "REVISION_CONFLICT",
    "WORKSPACE_READ_ONLY", "WORKSPACE_CORRUPT", "PORT_IN_USE"]

/-- `MESSAGE_KEY_PATTERN`. -/
def isMessageKey (text : List Char) : Bool :=
  match text with
  | [] => false
  | first :: rest =>
    first.isAlpha && rest.length ≤ 127 &&
      rest.all fun c => c.isAlphanum || c = '_' || c = '.' || c = '-'

/-- The code and the message key of an error that has both. -/
def stableIpcError (error : PortError) : Option (String × String) :=
  match error.code, error.messageKey with
  | some code, some messageKey =>
    if ERROR_CODES.contains code && isMessageKey messageKey.toList then some (code, messageKey)
    else none
  | _, _ => none

def isWorkspaceReadOnlyError (error : PortError) : Bool :=
  match stableIpcError error with
  | some (code, _) => code = "REVISION_CONFLICT" || code = "WORKSPACE_READ_ONLY"
  | none => false

/-- `InvalidWorkspaceResponseError` is no `IpcError`. -/
def invalidWorkspaceResponseError : PortError := ⟨none, none⟩

/-! ## The layout -/

structure WorkspaceLayoutV1 where
  width : Int
  collapsed : Bool
  deriving DecidableEq

def SIDEBAR_WIDTH_DEFAULT : Int := 292
def SIDEBAR_WIDTH_MIN : Int := 252
def SIDEBAR_WIDTH_MAX : Int := 340

def DEFAULT_WORKSPACE_LAYOUT : WorkspaceLayoutV1 := ⟨SIDEBAR_WIDTH_DEFAULT, false⟩

/-- `clampSidebarWidth` of a finite number; `Math.round` rounds a half up. -/
def clampSidebarWidth (width : FiniteNumber) : Int :=
  max SIDEBAR_WIDTH_MIN (min SIDEBAR_WIDTH_MAX ⌊width.toRat + 1 / 2⌋)

def sanitizeWorkspaceLayout (value : JsValue) : Option WorkspaceLayoutV1 :=
  match value with
  | .object [] => some DEFAULT_WORKSPACE_LAYOUT
  | .object _ =>
    match value.property "version", (value.property "sidebar").property "width",
      (value.property "sidebar").property "collapsed" with
    | .number (.finite 1), .number width, .bool collapsed =>
      if h : width.isFinite then some ⟨clampSidebarWidth ⟨width, h⟩, collapsed⟩ else none
    | _, _, _ => none
  | _ => some DEFAULT_WORKSPACE_LAYOUT

/-! ## Commands -/

/-- A mutation as the renderer has it. -/
structure SequencedMutation where
  sequence : Nat
  body : MutationBody JsValue JsNumber

def isForbiddenCapability (key : String) : Bool :=
  let normalized := toLowerCase key.toList
  includes normalized "path" || normalized = "portname".toList || includes normalized "handle" ||
    includes normalized "token" || includes normalized "grant" || normalized = "key".toList ||
    "apikey".toList.isSuffixOf normalized || includes normalized "secret"

mutual
/-- Whether `rejectFilesystemData` throws. -/
def hasFilesystemData : JsValue → Bool
  | .string text =>
    ['/'].isPrefixOf text.toList || ['\\'].isPrefixOf text.toList || isFileLocation text.toList ||
      isWindowsDrive text.toList
  | .array items => anyFilesystemItem items
  | .object fields => anyFilesystemField fields
  | _ => false

def anyFilesystemItem : List JsValue → Bool
  | [] => false
  | item :: items => hasFilesystemData item || anyFilesystemItem items

def anyFilesystemField : List (String × JsValue) → Bool
  | [] => false
  | (key, child) :: fields =>
    isForbiddenCapability key || hasFilesystemData child || anyFilesystemField fields
end

/-- The checks of a command of each kind. The whole payload is looked through for locations of
files where the source does so. -/
def isValidCommand : MutationBody JsValue JsNumber → Bool
  | .setMetadata payload =>
    payload.name.all (fun name => (validateProjectName name).isSome) &&
      !hasFilesystemData (objectLiteral.metadata id payload)
  | .setActiveSession sessionId => sessionId.all fun id => (validateOpaqueId id).isSome
  | .upsertSession sessionId payload =>
    (validateOpaqueId sessionId).isSome &&
      !hasFilesystemData (objectLiteral.sessionUpsert id payload)
  | .removeSession sessionId | .clearAiMessages sessionId
  | .replaceSessionCollections sessionId _ | .appendAiMessages sessionId _
  | .appendWaveformSamples sessionId _ => (validateOpaqueId sessionId).isSome
  | .appendFrames sessionId payload =>
    (validateOpaqueId sessionId).isSome &&
      !anyFilesystemItem (payload.frames.map objectLiteral.frame)
  | .replaceCapture sessionId payload =>
    (validateOpaqueId sessionId).isSome &&
      !anyFilesystemItem (payload.frames.map objectLiteral.frame)
  | .trimCapture sessionId payload =>
    (validateOpaqueId sessionId).isSome && 1 ≤ payload.frameCount.toNat
  | .upsertFeatureState entityId payload =>
    (validateOpaqueId entityId).isSome && !hasFilesystemData (objectLiteral.featureState id payload)
  | .replaceWaveformChannels sessionId payload =>
    (validateOpaqueId sessionId).isSome &&
      !anyFilesystemItem (payload.channels.map (objectLiteral.waveformChannel id))

def createSequencedMutation (command : MutationBody JsValue JsNumber) (sequence : Nat) :
    Option SequencedMutation :=
  if sequence ≤ MAX_SAFE_INTEGER && isValidCommand command then some ⟨sequence, command⟩ else none

/-- `commands.map((command, index) => createSequencedMutation(command, first + index))`. -/
def createSequencedMutations : List (MutationBody JsValue JsNumber) → Nat →
    Option (List SequencedMutation)
  | [], _ => some []
  | command :: commands, first => do
    let mutation ← createSequencedMutation command first
    let mutations ← createSequencedMutations commands (first + 1)
    pure (mutation :: mutations)

/-! ## The header of a document -/

structure WorkspaceHeader where
  workspaceId : String
  name : String
  revision : JsNumber
  activeSessionId : Option String
  sessionIds : List String
  layout : JsValue

/-- The workspace document of the renderer. -/
structure MutableActiveWorkspace where
  workspaceId : String
  name : String
  revision : Nat
  activeSessionId : Option String
  sessionIds : List String
  saveHealth : WorkspaceSaveHealth
  layout : WorkspaceLayoutV1

def sanitizeHeader (header : WorkspaceHeader) : Option MutableActiveWorkspace := do
  let workspaceId ← validateOpaqueId header.workspaceId
  let name ← validateProjectName header.name
  let revision ← validateRevision header.revision
  let sessionIds ← header.sessionIds.mapM validateOpaqueId
  if ¬sessionIds.Nodup then none
  let activeSessionId ← header.activeSessionId.mapM validateOpaqueId
  if activeSessionId.any (!sessionIds.contains ·) then none
  let layout ← sanitizeWorkspaceLayout header.layout
  pure { workspaceId, name, revision, activeSessionId, sessionIds, saveHealth := .clean, layout }

end bbcom.write_epoch
