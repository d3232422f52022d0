import RagSystem.EffectfulUpdates
import RagSystem.ReplayRuns
import RagSystem.AIConfiguration

/-!
# Versioned AI configurations

`AIConfigurationStore` and `AIConfigResolver` as programs of store reads,
create-only writes, compare-and-swaps and readings of the clock, the token
source and the settings. Logging and metrics are left out.
-/

namespace RagSystem.ConfigurationStore

open AtomicProgram ThreadPool VersionedCell Storage EffectfulUpdates AIConfiguration

set_option autoImplicit false

section Models

/-- `AIConfigurationVersion` as it is stored: what a replay reads of it, with
its description and its approval. -/
structure AIConfigurationVersion extends ReplayRuns.AIConfigurationVersion where
  /-- What the version changes. -/
  changeDescription : String
  /-- When it was created. -/
  createdAt : String
  /-- It is approved. -/
  approved : Bool := false
  /-- Who approved it. -/
  approver : Option String := none
  /-- When it was approved. -/
  approvedAt : Option String := none
  deriving DecidableEq

/-- What `create_version` is called with. The output schema and the retrieval
settings are JSON text. -/
structure CreateRequest where
  /-- The prompt. -/
  prompt : String
  /-- The model. -/
  model : String
  /-- The router's threshold. -/
  routerThreshold : ℚ
  /-- What the version changes. -/
  changeDescription : String
  /-- The output schema. -/
  outputSchema : Option String := none
  /-- The retrieval settings. -/
  retrievalSettings : Option String := none
  /-- The version's id, when the caller chooses it. -/
  versionId : Option String := none
  /-- When it was created, when the caller says so. -/
  createdAt : Option String := none
  deriving DecidableEq

/-- The exceptions of the service. -/
inductive ConfigurationError where
  /-- `ChangeDescriptionRequiredError`. -/
  | changeDescriptionRequired (message : String)
  /-- An exception of the index update, or about a missing version. -/
  | store (error : AIConfigError)
  deriving DecidableEq

/-- The settings a default configuration is seeded from; the retrieval settings
are the JSON text of the four of them. -/
structure SeedSettings where
  /-- `gemini_model_id`. -/
  geminiModelId : String
  /-- `route_min_confidence`. -/
  routeMinConfidence : ℚ
  /-- `retrieval_dense_top_k` and its three neighbours. -/
  retrievalSettings : String
  deriving DecidableEq

/-- `ResolvedConfig`. -/
structure ResolvedConfig where
  /-- The version that is stamped on traces. -/
  versionId : String
  /-- The configuration. -/
  configId : String
  /-- The prompt. -/
  prompt : String
  /-- The model. -/
  model : String
  /-- The output schema. -/
  outputSchema : String
  /-- The router's threshold. -/
  routerThreshold : ℚ
  /-- The retrieval settings. -/
  retrievalSettings : String
  /-- A version was loaded. -/
  isResolved : Bool := true
  deriving DecidableEq

/-- `_DEFAULT_PROMPT`. -/
def defaultPrompt : String := "You are answering questions over a private business PDF corpus. " ++
  "Use only the provided context. If the context is insufficient, " ++
  "say that the available documents do not contain enough evidence."

/-- `ResolvedConfig.from_version`. -/
def ResolvedConfig.fromVersion (version : AIConfigurationVersion) : ResolvedConfig where
  versionId := version.versionId
  configId := version.configId
  prompt := version.prompt
  model := version.model
  outputSchema := version.outputSchema
  routerThreshold := version.routerThreshold
  retrievalSettings := version.retrievalSettings

/-- `ResolvedConfig.unresolved`. -/
def ResolvedConfig.unresolved (configId : String) : ResolvedConfig where
  versionId := "unresolved"
  configId := configId
  prompt := defaultPrompt
  model := "gemini-3.5-flash"
  outputSchema := "{}"
  routerThreshold := 1 / 2
  retrievalSettings := "{}"
  isResolved := false

end Models

section Store

/-- The objects of an AI configuration. -/
inductive ConfigKey where
  /-- `ai_config_index_key`. -/
  | index (configId : String)
  /-- `ai_config_version_key`. -/
  | version (configId versionId : String)
  deriving DecidableEq

/-- What is stored under each key. -/
abbrev Payload : ConfigKey → Type
  | .index _ => AIConfigurationIndex
  | .version _ _ => AIConfigurationVersion

/-- The calls outside the store. -/
inductive ConfigCall where
  /-- `_utcnow_iso()`. -/
  | utcnowIso
  /-- `secrets.token_urlsafe(16)`. -/
  | tokenUrlsafe
  /-- `get_settings()`. -/
  | getSettings
  deriving DecidableEq

/-- What each of these calls returns. -/
abbrev ConfigAnswer : ConfigCall → Type
  | .utcnowIso => String
  | .tokenUrlsafe => String
  | .getSettings => SeedSettings

/-- Everything a call can raise. -/
abbrev Err := StoreError ConfigKey ConfigurationError

/-- The store; nothing else is kept. -/
abbrev World := StoreState Payload Unit

/-- A program of the configuration service. -/
abbrev Prog (α : Type) := StoreProgram ConfigurationError Payload ConfigAnswer α

/-- One of its calls. -/
abbrev Action := StoreAction Payload ConfigCall

/-- What a call returns. -/
abbrev Answer : Action → Type := StoreAnswer (P := Payload) ConfigAnswer

/-- One performed call with its answer. -/
abbrev CallEvent := Event Err Answer

/-- What the environment decides about a call outside the store. -/
inductive Fate where
  /-- The clock or the token source returns this text. -/
  | text (s : String)
  /-- The settings are these. -/
  | settings (s : SeedSettings)
  /-- The call raises. -/
  | raise (message : String)

/-- What a call outside the store does: it answers anything. -/
def answer? : (x : ConfigCall) → Fate → Option (Except Err (ConfigAnswer x) × Unit)
  | .utcnowIso, .text s => some (.ok s, ())
  | .tokenUrlsafe, .text s => some (.ok s, ())
  | .getSettings, .settings s => some (.ok s, ())
  | _, .raise m => some (.error (.raised m), ())
  | _, _ => none

/-- What every call does. -/
def configurations : Machine (Choice Fate) World Err Answer := machine fun x o _ => answer? x o

/-- The stored index, or a fresh one. -/
def World.index (w : World) (configId : String) : AIConfigurationIndex :=
  asIndex (w.objects (.index configId)).content configId

/-- The stored version. -/
def World.version (w : World) (configId versionId : String) : Option AIConfigurationVersion :=
  (w.objects (.version configId versionId)).content

end Store

section Service

variable (configId : String)

/-- A call outside the store. -/
def call (x : ConfigCall) : Prog (ConfigAnswer x) := perform (B := Answer) (StoreAction.other x)

/-- The exception of a version that is not there. -/
def versionNotFound (versionId : String) : Err :=
  .app (.store (.configurationVersionNotFound ("AI configuration version '" ++ versionId ++ "' was not found.")))

/-- `validate_change_description`. -/
def validateChangeDescription (changeDescription : String) : Prog Unit :=
  if 1 ≤ changeDescription.length ∧ changeDescription.length ≤ 500 then pure ()
  else throw (.app (.changeDescriptionRequired "A change description of 1 to 500 characters is required."))

/-- `get_index`. -/
def getIndex : Prog AIConfigurationIndex := do
  let payload : Option AIConfigurationIndex ← getJson (P := Payload) (.index configId)
  pure (asIndex payload configId)

/-- `get_version`. -/
def getVersion (versionId : String) : Prog (Option AIConfigurationVersion) :=
  getJson (P := Payload) (.version configId versionId)

/-- `value or fallback` of a text. -/
def orCall (value : Option String) (fallback : Prog String) : Prog String :=
  match value with
  | some text => if text = "" then fallback else pure text
  | none => fallback

/-- The version `create_version` writes. -/
def newVersion (request : CreateRequest) (versionId createdAt : String) : AIConfigurationVersion where
  configId := configId
  versionId := versionId
  prompt := request.prompt
  model := request.model
  outputSchema := request.outputSchema.getD "{}"
  routerThreshold := request.routerThreshold
  retrievalSettings := request.retrievalSettings.getD "{}"
  changeDescription := request.changeDescription
  createdAt := createdAt

/-- The `mutate` of `create_version`. -/
def appendVersion (versionId : String) (current : Option AIConfigurationIndex) : AIConfigurationIndex :=
  let index := asIndex current configId
  if versionId ∈ index.versions then index else { index with versions := index.versions ++ [versionId] }

/-- The update of the index that lists a version. -/
def listVersion (versionId : String) : Prog AIConfigurationIndex :=
  updateJsonCas (P := Payload) (.index configId) (fun current => .ok (appendVersion configId versionId current))
    maxAttempts

/-- `create_version`. -/
def createVersion (request : CreateRequest) : Prog AIConfigurationVersion := do
  validateChangeDescription request.changeDescription
  let versionId ← orCall request.versionId (call .tokenUrlsafe)
  let createdAt ← orCall request.createdAt (call .utcnowIso)
  let version := newVersion configId request versionId createdAt
  createJson (P := Payload) (.version configId versionId) version
  let _ ← listVersion configId versionId
  pure version

/-- The `mutate` of `approve_version`. -/
def approve (versionId approver approvedAt : String) : Option AIConfigurationVersion → Except Err AIConfigurationVersion
  | none => .error (versionNotFound versionId)
  | some version => .ok { version with approved := true, approver := some approver, approvedAt := some approvedAt }

/-- `approve_version`. -/
def approveVersion (versionId approver : String) : Prog AIConfigurationVersion := do
  let existing ← getVersion configId versionId
  match existing with
  | none => throw (versionNotFound versionId)
  | some _ => do
    let approvedAt ← call .utcnowIso
    updateJsonCas (P := Payload) (.version configId versionId) (approve versionId approver approvedAt) maxAttempts

/-- The `mutate` of `rollback`, which reads the clock each time it runs. -/
def activateNow (versionId operator reason : String) (current : Option AIConfigurationIndex) :
    Prog AIConfigurationIndex := do
  let timestamp ← call .utcnowIso
  match activate configId versionId operator timestamp reason current with
  | .ok index => pure index
  | .error e => throw (.app (.store e))

/-- The update of the index that activates a version. -/
def activateVersion (versionId operator reason : String) : Prog AIConfigurationIndex :=
  updateJsonCasBy (P := Payload) (.index configId) (activateNow configId versionId operator reason) maxAttempts

/-- `rollback`. The event holder keeps the event of the index that was written,
its last one. -/
def rollback (versionId operator reason : String) : Prog (Option ActivationEvent) := do
  let index ← getIndex configId
  if versionId ∈ index.versions then do
    let written ← activateVersion configId versionId operator reason
    pure written.activationEvents.getLast?
  else throw (versionNotFound versionId)

/-- What `_bootstrap_default` creates. -/
def seedRequest (settings : SeedSettings) : CreateRequest where
  prompt := defaultPrompt
  model := settings.geminiModelId
  routerThreshold := settings.routeMinConfidence
  changeDescription := "Initial default configuration (auto-seeded)"
  retrievalSettings := some settings.retrievalSettings

/-- `_bootstrap_default`. -/
def bootstrapDefault : Prog ResolvedConfig := do
  let settings ← call .getSettings
  let version ← createVersion configId (seedRequest settings)
  let _ ← rollback configId version.versionId "system" "Bootstrap initial active configuration"
  pure (.fromVersion version)

/-- `_resolve_inner`. -/
def resolveInner : Prog ResolvedConfig := do
  let index ← getIndex configId
  match index.activeVersionId with
  | some active => do
    let version ← getVersion configId active
    match version with
    | none => pure (.unresolved configId)
    | some version => pure (.fromVersion version)
  | none => bootstrapDefault configId

/-- `resolve`. -/
def resolve : Prog ResolvedConfig := tryCatch (resolveInner configId) fun _ => pure (.unresolved configId)

end Service

section Operations

/-- What the processes run on one configuration. -/
inductive Operation where
  /-- An operator creates a version. -/
  | createVersion (request : CreateRequest)
  /-- An operator approves a version. -/
  | approveVersion (versionId approver : String)
  /-- An operator activates a version. -/
  | rollback (versionId operator reason : String)
  /-- An answer is prepared. -/
  | resolve
  deriving DecidableEq

/-- What an operation returns. -/
inductive Reply where
  /-- A version. -/
  | version (v : AIConfigurationVersion)
  /-- An activation. -/
  | event (e : Option ActivationEvent)
  /-- A resolved configuration. -/
  | config (c : ResolvedConfig)

/-- The program of each operation. -/
def code (configId : String) : Operation → Prog Reply
  | .createVersion request => .version <$> createVersion configId request
  | .approveVersion versionId approver => .version <$> approveVersion configId versionId approver
  | .rollback versionId operator reason => .event <$> rollback configId versionId operator reason
  | .resolve => .config <$> resolve configId

/-- A pool of the configuration service. -/
abbrev ConfigPool := Pool World Operation Err Answer Reply

/-- A move of the configuration service. -/
abbrev ConfigMove := Move World Operation Err Answer Reply

/-- A run of calls on one configuration. -/
abbrev Configures (configId : String) := Run (O := Operation) configurations (code configId)

end Operations

section Sample

/-- A store in which nothing has been configured. -/
def freshWorld : World := ⟨fun _ => ⟨0, none⟩, ()⟩

/-- Every call goes through; the clock and the token source return this text. -/
def calm (token : String) : Action → Choice Fate
  | .other .getSettings => .other (.settings ⟨"gemini", 1 / 2, "{}"⟩)
  | .other _ => .other (.text token)
  | _ => .proceed

/-- A turn of a scheduler. -/
abbrev Turn := Command (Choice Fate) Operation Action

/-- Some turns of thread `t` in which every call goes through. -/
def turns (t n : ℕ) (token : String) : List Turn := List.replicate n (.step t (calm token))

end Sample

end RagSystem.ConfigurationStore
