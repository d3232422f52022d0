import Mathlib.Data.Nat.Notation

/-!
# AI configuration index

The index object of one AI configuration: its version history, the active
pointer and the audit log of activations.
-/

namespace RagSystem.AIConfiguration

set_option autoImplicit false

/-- `ActivationEvent`. -/
structure ActivationEvent where
  /-- Who activated. -/
  operator : String
  /-- The version that was active. -/
  previousVersionId : Option String
  /-- The version that is active now. -/
  selectedVersionId : String
  /-- When. -/
  timestamp : String
  /-- Why. -/
  reason : String
  deriving DecidableEq

/-- `AIConfigurationIndex`. -/
structure AIConfigurationIndex where
  /-- The configuration. -/
  configId : String
  /-- The active version. -/
  activeVersionId : Option String := none
  /-- The version ids, oldest first. -/
  versions : List String := []
  /-- The activations, oldest first. -/
  activationEvents : List ActivationEvent := []
  deriving DecidableEq

/-- The exceptions of the service. -/
inductive AIConfigError where
  /-- `ConfigurationVersionNotFoundError`. -/
  | configurationVersionNotFound (message : String)
  deriving DecidableEq

/-- `_as_index`. -/
def asIndex (payload : Option AIConfigurationIndex) (configId : String) : AIConfigurationIndex :=
  payload.getD { configId := configId }

/-- The `mutate` of `rollback`. -/
def activate (configId versionId operator timestamp reason : String) (current : Option AIConfigurationIndex) :
    Except AIConfigError AIConfigurationIndex :=
  let index := asIndex current configId
  if versionId ∈ index.versions then
    .ok
      { index with
        activeVersionId := some versionId
        activationEvents := index.activationEvents ++ [⟨operator, index.activeVersionId, versionId, timestamp, reason⟩] }
  else .error (.configurationVersionNotFound ("AI configuration version '" ++ versionId ++ "' was not found."))

/-- An activation keeps the version history and adds one event, for the version
that is then active. -/
theorem activate_ok {configId versionId operator timestamp reason : String} {current : Option AIConfigurationIndex}
    {index : AIConfigurationIndex} (h : activate configId versionId operator timestamp reason current = .ok index) :
    index.versions = (asIndex current configId).versions ∧ index.activeVersionId = some versionId ∧
      versionId ∈ index.versions ∧ index.activationEvents = (asIndex current configId).activationEvents ++
        [⟨operator, (asIndex current configId).activeVersionId, versionId, timestamp, reason⟩] := by
  unfold activate at h
  by_cases hin : versionId ∈ (asIndex current configId).versions
  · simp only [hin, if_true, Except.ok.injEq] at h
    subst h
    exact ⟨rfl, rfl, hin, rfl⟩
  · simp only [hin, if_false, reduceCtorEq] at h

end RagSystem.AIConfiguration
