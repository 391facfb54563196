/-
Updates of app components.

The bytes of a component are valid if its codec decodes them.  Two codecs are read nowhere
else, the profile of a group and the policy of its agent text streams; the others are those of
the earlier files.  On them rest the validators of a single update and of a commit's batch.

* `validateAppDataUpdateBatchAgainst_ok` — what an accepted batch says about every
  update in it.
-/
import Mdk.AgentTextStream
import Mdk.ComponentStates

namespace Mdk

open Checks

/-! ### The group profile -/

def groupProfileNameMaxLen : ℕ := 256

def groupProfileDescriptionMaxLen : ℕ := 4096

structure GroupProfileV1 where
  name : String
  description : String
deriving DecidableEq, Repr

def decodeGroupProfileV1 (bytes : List UInt8) : Except String GroupProfileV1 := do
  let (name, cursor) ← decodeVarBytes bytes groupProfileNameMaxLen "group profile name"
  let (description, cursor) ←
    decodeVarBytes cursor groupProfileDescriptionMaxLen "group profile description"
  require (cursor = []) "group profile component has trailing bytes"
  let name ← fromUtf8 name "group profile name"
  let description ← fromUtf8 description "group profile description"
  pure ⟨name, description⟩

/-! ### The policy of agent text streams -/

/-- The roles to receive, to send and to fan out. -/
def agentTextStreamRoleMask : UInt8 := 0x01 ||| 0x02 ||| 0x04

def agentTextStreamMaxReplayTtlSecs : ℕ := 5 * 60

def agentTextStreamMaxPaddingBucketBytes : ℕ := 4096

def agentTextStreamComponentStateLen : ℕ := 12

structure AgentTextStreamQuicPolicyV1 where
  requiredMemberRoles : UInt8
  allowedMemberRoles : UInt8
  maxPlaintextFrameLen : ℕ
  replayTtlSecs : ℕ
  paddingBucketBytes : ℕ
deriving DecidableEq, Repr

/-- A role mask as error texts print it, `0x` and two hexadecimal digits. -/
def roleMaskText (roles : UInt8) : String :=
  let digits := Nat.toDigits 16 roles.toNat
  "0x" ++ String.ofList (List.replicate (2 - digits.length) '0' ++ digits)

namespace AgentTextStreamQuicPolicyV1

def validate (policy : AgentTextStreamQuicPolicyV1) : Except String Unit := do
  require (policy.requiredMemberRoles ≠ 0) "required agent text stream roles cannot be empty"
  require (policy.requiredMemberRoles &&& ~~~agentTextStreamRoleMask = 0)
    ("required agent text stream role mask contains unknown bits: " ++
      roleMaskText policy.requiredMemberRoles)
  require (policy.allowedMemberRoles &&& ~~~agentTextStreamRoleMask = 0)
    ("allowed agent text stream role mask contains unknown bits: " ++
      roleMaskText policy.allowedMemberRoles)
  require (policy.requiredMemberRoles &&& ~~~policy.allowedMemberRoles = 0)
    "required agent text stream roles must be a subset of allowed roles"
  require (policy.maxPlaintextFrameLen ≠ 0)
    "agent text stream plaintext frame limit cannot be zero"
  require (policy.maxPlaintextFrameLen ≤ Mdk.maxPlaintextFrameLen)
    ("agent text stream plaintext frame limit exceeds app profile max: " ++
      toString policy.maxPlaintextFrameLen)
  require (policy.replayTtlSecs ≤ agentTextStreamMaxReplayTtlSecs)
    ("agent text stream replay ttl exceeds app profile max: " ++ toString policy.replayTtlSecs)
  require (policy.paddingBucketBytes ≤ agentTextStreamMaxPaddingBucketBytes)
    ("agent text stream padding bucket exceeds app profile max: " ++
      toString policy.paddingBucketBytes)

def decodeComponentState (bytes : List UInt8) : Except String AgentTextStreamQuicPolicyV1 := do
  require (bytes.length = agentTextStreamComponentStateLen)
    ("agent text stream component state must be 12 bytes, got " ++ toString bytes.length)
  let policy : AgentTextStreamQuicPolicyV1 :=
    ⟨bytes.headD 0, (bytes.drop 1).headD 0, ofBeBytes ((bytes.take 6).drop 2),
      ofBeBytes ((bytes.take 10).drop 6), ofBeBytes ((bytes.take 12).drop 10)⟩
  policy.validate
  pure policy

end AgentTextStreamQuicPolicyV1

/-! ### Updates and batches of updates -/

def isKnownGroupComponent (id : AppComponentId) : Bool :=
  id ∈ [appComponentsComponentId, safeAadComponentId, groupProfileComponentId,
    groupBlossomImageComponentId, groupAdminPolicyComponentId, nostrRoutingComponentId,
    groupMessageRetentionComponentId, agentTextStreamQuicComponentId, groupAvatarUrlComponentId,
    groupEncryptedMediaV1ComponentId, groupEncryptedMediaV2ComponentId,
    groupLifecycleComponentId]

variable (parser : UrlParser)

def validateAppComponentBytes (id : AppComponentId) (data : List UInt8) :
    Except ComponentError Unit :=
  let serialized {α : Type} (context : String) (r : Except String α) : Except ComponentError Unit :=
    (r.map fun _ => ()).mapError fun e => .serialize (context ++ e)
  if id = appComponentsComponentId then
    serialized "invalid app_components component: " (decodeComponentsList data)
  else if id = safeAadComponentId then
    throw (.other "safe_aad group-component state is not supported yet")
  else if id = accountIdentityProofComponentId then
    throw (.other
      "account identity proof is LeafNode-only and cannot be updated in GroupContext")
  else if id = groupProfileComponentId then
    serialized "profile component decode failed: " (decodeGroupProfileV1 data)
  else if id = groupAdminPolicyComponentId then (decodeAdminPolicy data).map fun _ => ()
  else if id = nostrRoutingComponentId then
    serialized "invalid Nostr routing component: " (decodeNostrRoutingV1 parser data)
  else if id = groupBlossomImageComponentId then
    serialized "invalid group image component: " (decodeGroupBlossomImageV1 data)
  else if id = groupAvatarUrlComponentId then
    serialized "invalid group avatar URL component: " (decodeGroupAvatarUrlV1 parser data)
  else if id = groupMessageRetentionComponentId then
    require (data.length = 8) (.serialize
      ("message-retention component must be 8 bytes, got " ++ toString data.length))
  else if id = agentTextStreamQuicComponentId then
    serialized "invalid agent text stream component: "
      (AgentTextStreamQuicPolicyV1.decodeComponentState data)
  else if id = groupEncryptedMediaV1ComponentId then
    serialized "invalid encrypted media V1 component: " (decodeEncryptedMediaPolicyV1 parser data)
  else if id = groupEncryptedMediaV2ComponentId then
    serialized "invalid encrypted media V2 component: " (decodeEncryptedMediaPolicyV2 parser data)
  else if id = groupLifecycleComponentId then
    serialized "invalid group lifecycle component: " (decodeGroupLifecycleV1 data)
  else pure ()

theorem validateAppComponentBytes_adminPolicy {parser : UrlParser} {data : List UInt8}
    (h : validateAppComponentBytes parser groupAdminPolicyComponentId data = .ok ()) :
    ∃ admins, decodeAdminPolicy data = .ok admins := by
  change (decodeAdminPolicy data).map (fun _ => ()) = .ok () at h
  cases hdecode : decodeAdminPolicy data with
  | error e =>
    rw [hdecode] at h
    cases h
  | ok admins => exact ⟨admins, rfl⟩

inductive AppDataUpdateOperation where
  | update (data : List UInt8)
  | remove
deriving DecidableEq, Repr

/-- The bytes the operation leaves for its component. -/
def AppDataUpdateOperation.result : AppDataUpdateOperation → Option (List UInt8)
  | .update data => some data
  | .remove => none

structure AppDataUpdateProposal where
  componentId : AppComponentId
  operation : AppDataUpdateOperation
deriving DecidableEq, Repr

def validateAppComponentRemoveAgainst (resultingRequired : AppComponentSet)
    (id : AppComponentId) : Except ComponentError Unit := do
  require (id ≠ appComponentsComponentId) (.other "app_components component cannot be removed")
  require (id ≠ safeAadComponentId)
    (.other "safe_aad group-component state is not supported yet")
  require (id ≠ groupLifecycleComponentId)
    (.other "group lifecycle component cannot be removed")
  require (id ∉ resultingRequired) (.other "required Marmot app components cannot be removed")

def validateStandaloneAppDataUpdate (update : AppDataUpdateProposal) : Except ComponentError Unit :=
  match update.operation with
  | .update data => validateAppComponentBytes parser update.componentId data
  | .remove => validateAppComponentRemoveAgainst [] update.componentId

/-- The required set after one update of a batch. -/
def requiredComponentsAfter (required : AppComponentSet) (update : AppDataUpdateProposal) :
    Except ComponentError AppComponentSet :=
  if update.componentId = appComponentsComponentId then
    match update.operation with
    | .update data =>
      (decodeComponentsList data).mapError
        (fun e => .serialize ("invalid app_components component: " ++ e))
    | .remove => throw (.other "app_components component cannot be removed")
  else pure required

/-- The first pass over a batch: no component twice, and the required set the batch
results in. -/
def resultingRequiredComponents (required : AppComponentSet) (seen : List AppComponentId) :
    List AppDataUpdateProposal → Except ComponentError AppComponentSet
  | [] => pure required
  | update :: updates => do
    require (update.componentId ∉ seen) (.other
      ("commit contains multiple AppDataUpdate operations for component " ++
        update.componentId.text))
    let required ← requiredComponentsAfter required update
    resultingRequiredComponents required (seen ++ [update.componentId]) updates

def validateAppDataUpdateBatchAgainst (required : AppComponentSet)
    (updates : List AppDataUpdateProposal) : Except ComponentError Unit := do
  let resultingRequired ← resultingRequiredComponents required [] updates
  forM updates fun update =>
    match update.operation with
    | .update data => validateAppComponentBytes parser update.componentId data
    | .remove => validateAppComponentRemoveAgainst resultingRequired update.componentId

/-- Every update of an accepted batch carries bytes its component accepts. -/
theorem validateAppDataUpdateBatchAgainst_ok {parser : UrlParser}
    {required : AppComponentSet} {updates : List AppDataUpdateProposal}
    (h : validateAppDataUpdateBatchAgainst parser required updates = .ok ())
    {update : AppDataUpdateProposal} (hmem : update ∈ updates) {data : List UInt8}
    (hop : update.operation = .update data) :
    validateAppComponentBytes parser update.componentId data = .ok () := by
  simp only [validateAppDataUpdateBatchAgainst, bind_eq_ok, forM_eq_ok] at h
  obtain ⟨_, _, hall⟩ := h
  have := hall update hmem
  rwa [hop] at this

end Mdk
