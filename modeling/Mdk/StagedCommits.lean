/-
Staged commits and the five validators a commit has to pass before it is merged.

A group is its ratchet-tree leaves with the extensions of its group context; a
staged commit is what a committer offers: proposals with their senders, a path, and
a resulting group context that may hold anything at all.

* `authorizeStagedCommitProposals` looks at each proposal and its sender,
* `requireAdminForStagedCommit` at the committer,
* `validateAdminLeafCouplingForStagedCommit` at admins and leaves,
* `validateAppComponentIntegrityForStagedCommit` at every changed component, and
* `validateCurrentProfileInvariantsForStagedCommit` at the complete result, with
  the lifecycle transition.

`Accepted` is all five, and `MlsGroup.merge` is the state an accepted commit leads to.
-/
import Mdk.EngineState
import Mdk.ComponentUpdates
import Mdk.Canonicalization

namespace Mdk

open Checks Std

/-! ### Groups and commits -/

inductive ProtocolProfile where
  | legacy
  | current
deriving DecidableEq, Repr

structure RequiredCapabilities where
  extensionTypes : List UInt16
  proposalTypes : List UInt16
  credentialTypes : List UInt16
deriving DecidableEq, Repr

abbrev AppDataDictionary := ExtTreeMap AppComponentId (List UInt8)

/-- The extensions of a group context that the validators read. -/
structure Extensions where
  requiredCapabilities : Option RequiredCapabilities
  appDataDictionary : Option AppDataDictionary
deriving DecidableEq

variable (extensions : Extensions)

/-- The bytes of one component, of a dictionary that may be missing altogether. -/
def Extensions.component (id : AppComponentId) : Option (List UInt8) :=
  extensions.appDataDictionary.bind fun dictionary => dictionary[id]?

/-- A leaf: the identity of its credential, its capabilities and the bytes of its own
`app_components` entry. -/
structure LeafNode where
  identity : List UInt8
  extensions : List UInt16
  proposals : List UInt16
  credentials : List UInt16
  appComponents : Option (List UInt8)
deriving DecidableEq, Repr

structure MlsGroup where
  extensions : Extensions
  leaves : List (Option LeafNode)
deriving DecidableEq

def MlsGroup.memberAt (group : MlsGroup) (index : ℕ) : Option LeafNode :=
  group.leaves[index]?.join

/-- The indexes of the leaves that hold a member. -/
def MlsGroup.memberIndexes (group : MlsGroup) : List ℕ :=
  (List.range group.leaves.length).filter fun index => (group.memberAt index).isSome

inductive Sender where
  | member (index : ℕ)
  | external
  | newMemberProposal
  | newMemberCommit
deriving DecidableEq, Repr

inductive Proposal where
  | add (leaf : LeafNode)
  | update (leaf : LeafNode)
  | remove (removed : ℕ)
  | preSharedKey
  | reInit
  | externalInit
  | groupContextExtensions (extensions : Extensions)
  | appDataUpdate (update : AppDataUpdateProposal)
  | selfRemove
  | appEphemeral
  | custom
deriving DecidableEq

inductive ProposalOrRefType where
  | proposal
  | reference
deriving DecidableEq, Repr

structure QueuedProposal where
  proposal : Proposal
  sender : Sender
  proposalOrRefType : ProposalOrRefType
deriving DecidableEq

/-- A staged commit with the leaf of its authenticated sender.  A proposal carried by
value is attributed to the committer. -/
structure StagedCommit where
  committer : ℕ
  queuedProposals : List QueuedProposal
  updatePathLeafNode : Option LeafNode
  groupContext : Extensions
  inline_sender : ∀ queued ∈ queuedProposals, queued.proposalOrRefType = .proposal →
    queued.sender = .member committer

namespace StagedCommit

variable (staged : StagedCommit)

def addProposals : List LeafNode :=
  staged.queuedProposals.filterMap fun queued =>
    match queued.proposal with
    | .add leaf => some leaf
    | _ => none

def removeProposals : List ℕ :=
  staged.queuedProposals.filterMap fun queued =>
    match queued.proposal with
    | .remove removed => some removed
    | _ => none

/-- The leaves whose members send a SelfRemove. -/
def selfRemovers : List ℕ :=
  staged.queuedProposals.filterMap fun queued =>
    match queued.proposal, queued.sender with
    | .selfRemove, .member index => some index
    | _, _ => none

/-- The Update proposals with their senders. -/
def updateProposals : List (Sender × LeafNode) :=
  staged.queuedProposals.filterMap fun queued =>
    match queued.proposal with
    | .update leaf => some (queued.sender, leaf)
    | _ => none

def appDataUpdates : List AppDataUpdateProposal :=
  staged.queuedProposals.filterMap fun queued =>
    match queued.proposal with
    | .appDataUpdate update => some update
    | _ => none

/-- The leaves the commit takes out of the tree. -/
def removedLeaves : List ℕ :=
  staged.removeProposals ++ staged.selfRemovers

end StagedCommit

/-- What the validators take from outside: whether an identity is a valid account key,
the profile of a leaf's account proof, and what a URL is. -/
structure Environment where
  validIdentity : List UInt8 → Bool
  leafProof : LeafNode → Except String ProtocolProfile
  urlParser : UrlParser

variable (env : Environment)

/-! ### Reading a group -/

/-- The legacy proof extension type. -/
def accountIdentityProofExtensionType : UInt16 := 0xf2f1

def protocolProfileOfExtensions :
    Except ComponentError ProtocolProfile := do
  let legacyRequired := extensions.requiredCapabilities.any fun required =>
    accountIdentityProofExtensionType ∈ required.extensionTypes
  require (extensions.component accountIdentityProofComponentId = none)
    (.invalidAccountIdentityProof
      "GroupContext carries leaf-only proof component 0x8009 state")
  let components ← (extensions.component appComponentsComponentId).elim
    (pure []) fun bytes => (decodeComponentsList bytes).mapError fun e =>
      .invalidAccountIdentityProof ("group app_components cannot classify proof profile: " ++ e)
  match legacyRequired, decide (accountIdentityProofComponentId ∈ components) with
  | true, false => pure .legacy
  | false, true => pure .current
  | true, true => throw (.invalidAccountIdentityProof
      "group mixes legacy proof requirement 0xf2f1 with current proof requirement 0x8009")
  | false, false => throw (.invalidAccountIdentityProof
      ("group requires neither legacy proof extension 0xf2f1 nor current proof component " ++
        "0x8009"))

variable (group : MlsGroup)

def protocolProfileOfGroup : Except ComponentError ProtocolProfile :=
  protocolProfileOfExtensions group.extensions

def requiredAppComponentsOfGroup : Except ComponentError AppComponentSet :=
  match group.extensions.component appComponentsComponentId with
  | none => pure []
  | some bytes => (decodeComponentsList bytes).mapError
      (fun e => .serialize ("group app_components decode failed: " ++ e))

def requiredAppComponentsOfExtensions (context : String) :
    Except ComponentError AppComponentSet := do
  let some dictionary := extensions.appDataDictionary
    | throw (.other ("invalid " ++ context ++ ": missing app_data_dictionary"))
  let some bytes := dictionary[appComponentsComponentId]?
    | throw (.other ("invalid " ++ context ++ ": missing app_components requirement list"))
  (decodeComponentsList bytes).mapError
    (fun e => .serialize ("invalid " ++ context ++ " app_components: " ++ e))

def adminsOfGroup : Except ComponentError (List Account) :=
  match group.extensions.component groupAdminPolicyComponentId with
  | none => pure []
  | some bytes => decodeAdminPolicy bytes

def lifecycleFromExtensions (extensions : Extensions) :
    Except ComponentError (Option GroupLifecycleV1) :=
  match extensions.component groupLifecycleComponentId with
  | none => pure none
  | some bytes => ((decodeGroupLifecycleV1 bytes).map some).mapError
      (fun e => .serialize ("invalid group lifecycle component: " ++ e))

variable (leaf : LeafNode)

/-- The account of a leaf, on the length of its identity alone. -/
def credentialAccountPubkey : Option Account :=
  if leaf.identity.length = 32 then some leaf.identity else none

/-- The member id of a leaf whose identity is a valid account key. -/
def validatedMemberId : Except ComponentError Account := do
  require (leaf.identity.length = 32) (.invalidCredentialIdentity
    ("credential identity must be exactly 32 bytes; got " ++ toString leaf.identity.length))
  require (env.validIdentity leaf.identity = true) (.invalidCredentialIdentity
    "credential identity is not a valid x-only secp256k1 public key")
  pure leaf.identity

def adminPubkeyFromMemberId (id : List UInt8) : Except ComponentError Account := do
  require (id.length = 32) (.backend
    ("Marmot admin policy requires 32-byte member identities; got " ++ toString id.length))
  pure id

def memberIdAtLeaf (index : ℕ) : Option Account :=
  (group.memberAt index).bind fun leaf => (validatedMemberId env leaf).toOption

def appComponentsOfLeaf : Except ComponentError AppComponentSet :=
  match leaf.appComponents with
  | none => pure []
  | some bytes => (decodeComponentsList bytes).mapError
      (fun e => .serialize ("leaf app_components decode failed: " ++ e))

/-! ### The resulting group context and its leaves -/

def currentProfileRequiredGroupContextExtensions : List UInt16 := [0x0006]
def currentProfileRequiredProposals : List UInt16 := [0x0008]
def currentProfileRequiredAppComponents : List AppComponentId :=
  [groupAdminPolicyComponentId, accountIdentityProofComponentId]
def currentProfileRequiredGroupContextStateComponents : List AppComponentId :=
  [groupAdminPolicyComponentId]
def currentProfileLeafOnlyAppComponents : List AppComponentId := [accountIdentityProofComponentId]

def validateCurrentProfileGroupContext (extensions : Extensions) (context : String) :
    Except ComponentError AppComponentSet := do
  let invalid (text : String) : ComponentError :=
    .other ("invalid current-profile " ++ context ++ ": " ++ text)
  let some required := extensions.requiredCapabilities
    | throw (invalid "missing required_capabilities")
  require ((currentProfileRequiredGroupContextExtensions.all fun extensionType =>
      extensionType ∈ required.extensionTypes) = true)
    (invalid "app_data_dictionary is not a required extension")
  require ((currentProfileRequiredProposals.all fun proposalType =>
      proposalType ∈ required.proposalTypes) = true)
    (invalid "app_data_update is not a required proposal")
  let some dictionary := extensions.appDataDictionary
    | throw (invalid "missing app_data_dictionary")
  let requiredComponents ← requiredAppComponentsOfExtensions extensions context
  require (groupEncryptedMediaV1ComponentId ∉ requiredComponents ∧
      groupEncryptedMediaV1ComponentId ∉ dictionary)
    (invalid ("frozen encrypted-media V1 component " ++
      groupEncryptedMediaV1ComponentId.text ++ " is not permitted"))
  forM currentProfileRequiredAppComponents fun mandatory =>
    require (mandatory ∈ requiredComponents)
      (invalid ("missing mandatory component requirement " ++ mandatory.text))
  forM currentProfileLeafOnlyAppComponents fun id =>
    require (id ∉ dictionary) (invalid "leaf-only account proof appears in GroupContext")
  forM currentProfileRequiredGroupContextStateComponents fun id =>
    require (id ∈ dictionary)
      (invalid ("required component " ++ id.text ++ " has no GroupContext state"))
  forM dictionary.toList fun entry =>
    if isKnownGroupComponent entry.1 then validateAppComponentBytes env.urlParser entry.1 entry.2
    else pure ()
  forM requiredComponents fun id => do
    if id ∈ currentProfileLeafOnlyAppComponents then pure ()
    else
      require (isKnownGroupComponent id = true)
        (invalid ("unsupported required component " ++ id.text))
      require (id ∈ dictionary)
        (invalid ("required component " ++ id.text ++ " has no GroupContext state"))
  pure requiredComponents

/-- The capabilities every MLS client has without advertising them. -/
def isDefaultMlsExtensionType (t : UInt16) : Bool := 1 ≤ t && t ≤ 5
def isDefaultMlsProposalType (t : UInt16) : Bool := 1 ≤ t && t ≤ 7

def validateResultingLeafCapabilities (leaves : List LeafNode) (extensions : Extensions)
    (requiredComponents : AppComponentSet) : Except ComponentError Unit := do
  let some required := extensions.requiredCapabilities
    | throw (.other "invalid current-profile group state: missing required_capabilities")
  forM leaves fun leaf => do
    require ((required.extensionTypes.all fun t =>
        isDefaultMlsExtensionType t || t ∈ leaf.extensions) = true ∧
      (required.proposalTypes.all fun t =>
        isDefaultMlsProposalType t || t ∈ leaf.proposals) = true ∧
      (required.credentialTypes.all fun t => t ∈ leaf.credentials) = true)
      (.other "invalid current-profile resulting state: member lacks a required MLS capability")
    let advertised ← appComponentsOfLeaf leaf
    require ((requiredComponents.all fun id => id ∈ advertised) = true)
      (.other "invalid current-profile resulting state: member lacks a required app component")

/-! ### Proposals and their senders -/

/-- A rejected proposal; of the reason only the category is kept. -/
structure StandaloneProposalRejection where
  category : ProposalRejectionCategory
deriving DecidableEq, Repr

namespace StandaloneProposalRejection

def authorization : StandaloneProposalRejection := ⟨.authorizationFailed⟩
def invalidSelfRemove : StandaloneProposalRejection := ⟨.invalidSelfRemove⟩
def unsupported : StandaloneProposalRejection := ⟨.unsupportedProposal⟩
def invalid : StandaloneProposalRejection := ⟨.invalidEncoding⟩

end StandaloneProposalRejection

def ProtocolProfile.debugText : ProtocolProfile → String
  | .legacy => "Legacy"
  | .current => "Current"

def ensureProfile (actual expected : ProtocolProfile) (context : String) :
    Except ComponentError Unit :=
  require (actual = expected) (.invalidAccountIdentityProof
    (context ++ " uses " ++ actual.debugText ++ " proof in a " ++ expected.debugText ++ " group"))

def validateLeafAccountIdentityProof :
    Except ComponentError ProtocolProfile := do
  let _ ← validatedMemberId env leaf
  (env.leafProof leaf).mapError (fun e => .invalidAccountIdentityProof e)

variable (queued : QueuedProposal)

def validateStandaloneProposalAccountIdentityProof (group : MlsGroup) :
    Except ComponentError Unit := do
  let profile ← protocolProfileOfGroup group
  match queued.proposal with
  | .add leaf => do
    let actual ← validateLeafAccountIdentityProof env leaf
    ensureProfile actual profile "standalone Add proposal"
    let _ ← validatedMemberId env leaf
    pure ()
  | .update leaf => do
    let expected := match queued.sender with
      | .member index => memberIdAtLeaf env group index
      | _ => none
    let some expected := expected
      | throw (.invalidAccountIdentityProof
          "standalone Update proposal has no authenticated member sender")
    let actualMember ← validatedMemberId env leaf
    let actual ← validateLeafAccountIdentityProof env leaf
    require (actualMember = expected) (.invalidAccountIdentityProof
      ("standalone Update proposal credential identity does not match existing member " ++
        "identity"))
    ensureProfile actual profile "standalone Update proposal"
  | _ => pure ()

def validateMembershipProposal :
    Except StandaloneProposalRejection Unit := do
  match queued.proposal with
  | .remove removed => require ((group.memberAt removed).isSome = true) .invalid
  | _ => pure ()
  (validateStandaloneProposalAccountIdentityProof env queued group).mapError fun _ => .invalid

def validateGroupContextExtensionProposal (profile : ProtocolProfile) (extensions : Extensions) :
    Except StandaloneProposalRejection Unit := do
  let requiredComponents ←
    if profile = .current then
      (validateCurrentProfileGroupContext env extensions "proposed group state").mapError
        (fun _ => .invalid)
    else pure []
  (validateResultingLeafCapabilities (group.leaves.filterMap id) extensions
    requiredComponents).mapError (fun _ => .unsupported)

/-- What a proposal of its kind may be sent for, by an admin and by anyone else. -/
def authorizeProposalKind (profile : ProtocolProfile) (senderIsAdmin validateAppDataPayload : Bool)
    : Except StandaloneProposalRejection Unit :=
  match queued.proposal with
  | .selfRemove => require (senderIsAdmin = false) .invalidSelfRemove
  | .appDataUpdate update => do
    require (senderIsAdmin = true) .authorization
    require (¬ (update.componentId = groupLifecycleComponentId ∧
      queued.proposalOrRefType = .reference)) .invalid
    if validateAppDataPayload then
      (validateStandaloneAppDataUpdate env.urlParser update).mapError fun _ => .invalid
    else pure ()
  | .groupContextExtensions extensions => do
    require (senderIsAdmin = true) .authorization
    validateGroupContextExtensionProposal env group profile extensions
  | .add _ | .remove _ => do
    require (senderIsAdmin = true) .authorization
    validateMembershipProposal env group queued
  | .update _ => do
    require (¬ (profile = .current ∧ senderIsAdmin = false)) .authorization
    validateMembershipProposal env group queued
  | .preSharedKey | .reInit | .externalInit | .appEphemeral | .custom => throw .unsupported

def authorizeProposal (validateAppDataPayload : Bool) :
    Except StandaloneProposalRejection Unit := do
  let .member senderIndex := queued.sender | throw .authorization
  let some senderMember := group.memberAt senderIndex | throw .authorization
  let senderId ← (validatedMemberId env senderMember).mapError (fun _ => .invalid)
  let profile ← (protocolProfileOfGroup group).mapError (fun _ => .invalid)
  let admins ← (adminsOfGroup group).mapError (fun _ => .invalid)
  let senderPubkey ← (adminPubkeyFromMemberId senderId).mapError (fun _ => .invalid)
  authorizeProposalKind env group queued profile (senderPubkey ∈ admins) validateAppDataPayload

def validateAppDataUpdateBatch (updates : List AppDataUpdateProposal) :
    Except ComponentError Unit := do
  let required ← requiredAppComponentsOfGroup group
  validateAppDataUpdateBatchAgainst env.urlParser required updates

variable (staged : StagedCommit)

def authorizeStagedCommitProposals :
    Except StandaloneProposalRejection Unit := do
  forM staged.queuedProposals fun queued => authorizeProposal env group queued false
  (validateAppDataUpdateBatch env group staged.appDataUpdates).mapError fun _ => .invalid

/-! ### The committer -/

def requireAdmin (memberId : Account) : Except ComponentError Unit := do
  let memberPubkey ← adminPubkeyFromMemberId memberId
  let admins ← adminsOfGroup group
  require (memberPubkey ∈ admins) .notGroupAdmin

/-- One SelfRemove may not come from an admin, nor from a sender without an account. -/
def rejectAdminSelfRemove (admins : List Account) (queued : QueuedProposal) :
    Except ComponentError Unit :=
  match queued.proposal with
  | .selfRemove =>
    let senderPubkey := match queued.sender with
      | .member index => (group.memberAt index).bind credentialAccountPubkey
      | _ => none
    match senderPubkey with
    | none => throw .adminCannotSelfRemove
    | some senderPubkey => require (senderPubkey ∉ admins) .adminCannotSelfRemove
  | _ => pure ()

def rejectAdminSelfRemoveProposals :
    Except ComponentError Unit := do
  let admins ← adminsOfGroup group
  if admins = [] then pure ()
  else forM staged.queuedProposals (rejectAdminSelfRemove group admins)

/-- The two commits a non-admin may make: a path and no proposal, or nothing but
SelfRemoves. -/
def isAllowedNonAdminCommit : Bool :=
  if staged.queuedProposals.any fun queued => queued.proposal != .selfRemove then false
  else
    let isSelfUpdateOnly := staged.queuedProposals.isEmpty && staged.updatePathLeafNode.isSome
    let isSelfRemoveOnly := !staged.queuedProposals.isEmpty
    xor isSelfUpdateOnly isSelfRemoveOnly

def requireAdminForStagedCommit :
    Except ComponentError Unit := do
  rejectAdminSelfRemoveProposals group staged
  if isAllowedNonAdminCommit staged then pure ()
  else
    match memberIdAtLeaf env group staged.committer with
    | none => throw .notGroupAdmin
    | some sender => requireAdmin group sender

/-! ### Admins and leaves -/

/-- The accounts of the leaves that stay and of the leaves that are added. -/
def resultingAccounts : List Account :=
  (group.memberIndexes.filterMap fun index =>
    if index ∈ staged.removedLeaves then none
    else (group.memberAt index).bind credentialAccountPubkey) ++
  staged.addProposals.filterMap credentialAccountPubkey

def validateAdminLeafCouplingForStagedCommit :
    Except ComponentError Unit := do
  let resultingAdmins ← match staged.groupContext.component groupAdminPolicyComponentId with
    | some bytes => decodeAdminPolicy bytes
    | none => adminsOfGroup group
  match resultingAdmins.find? fun admin => admin ∉ resultingAccounts group staged with
  | some orphaned => throw (.unknownMember orphaned)
  | none => pure ()

/-! ### Component integrity -/

/-- The ids of two dictionaries, ascending and each once. -/
def componentIdsOf (current resulting : Option AppDataDictionary) : List AppComponentId :=
  (((current.elim [] ExtTreeMap.keys) ++ (resulting.elim [] ExtTreeMap.keys)).insertionSort
    (· ≤ ·)).dedup

/-- The components a commit may not drop: what the result requires, and the
requirement list itself. -/
def protectedComponents :
    Except ComponentError AppComponentSet := do
  let profile ← protocolProfileOfGroup group
  let required ←
    if (staged.groupContext.component appComponentsComponentId).isSome then
      requiredAppComponentsOfExtensions staged.groupContext "resulting GroupContext"
    else if profile = .current then
      throw (.other
        "commit is invalid: resulting GroupContext drops current-profile app_components")
    else pure []
  if profile = .current ∨
      (group.extensions.component appComponentsComponentId).isSome then
    pure (if appComponentsComponentId ∈ required then required
      else required.orderedInsert (· ≤ ·) appComponentsComponentId)
  else pure required

def validateAppComponentIntegrityForStagedCommit :
    Except ComponentError Unit := do
  let current := group.extensions
  let resulting := staged.groupContext
  require (¬ (current.appDataDictionary.isSome = true ∧ resulting.appDataDictionary = none))
    (.other "commit is invalid: resulting GroupContext drops the app_data_dictionary")
  let protectedIds ← protectedComponents group staged
  forM protectedIds fun id =>
    require (id = accountIdentityProofComponentId ∨ (resulting.component id).isSome = true)
      (.other ("commit is invalid: resulting GroupContext drops required app component " ++
        id.text))
  forM (componentIdsOf current.appDataDictionary resulting.appDataDictionary) fun id =>
    require (current.component id = resulting.component id ∨
        ∃ update ∈ staged.appDataUpdates, update.componentId = id ∧
          update.operation.result = resulting.component id)
      (.other ("commit is invalid: resulting GroupContext changes app component " ++
        id.text ++ " outside an AppDataUpdate proposal"))

/-! ### The complete result -/

/-- The leaves by index with one of them replaced, or entered if the index was free. -/
def insertLeaf (leaves : List (ℕ × LeafNode)) (index : ℕ) (leaf : LeafNode) :
    List (ℕ × LeafNode) :=
  (leaves.filter fun entry => entry.1 ≠ index) ++ [(index, leaf)]

def conceptualResultingLeaves :
    Except ComponentError (List LeafNode) := do
  let kept := group.memberIndexes.filterMap fun index =>
    if index ∈ staged.removedLeaves then none
    else (group.memberAt index).map fun leaf => (index, leaf)
  let updated ← staged.updateProposals.foldlM (fun leaves update =>
    match update.1 with
    | .member index => pure (insertLeaf leaves index update.2)
    | _ => throw (ComponentError.other
        "invalid resulting group state: Update has no member sender")) kept
  let withPath := match staged.updatePathLeafNode with
    | some leaf => insertLeaf updated staged.committer leaf
    | none => updated
  pure (withPath.map Prod.snd ++ staged.addProposals)

/-- The counts and the removed leaves of a disbanding commit, proposal by proposal. -/
structure DisbandShape where
  lifecycleUpdates : ℕ
  adminUpdates : ℕ
  removed : Finset ℕ
deriving DecidableEq

def disbandProposal (committerAdmin : Account) (shape : DisbandShape) (queued : QueuedProposal) :
    Except ComponentError DisbandShape := do
  require (queued.proposalOrRefType = .proposal)
    (.other "commit is invalid: every disband proposal must be inline")
  match queued.proposal with
  | .remove removed => pure { shape with removed := insert removed shape.removed }
  | .appDataUpdate update =>
    if update.componentId = groupLifecycleComponentId then
      match update.operation with
      | .remove => throw (.other "commit is invalid: lifecycle component cannot be removed")
      | .update data => do
        let lifecycle ← (decodeGroupLifecycleV1 data).mapError
          (fun e => .serialize ("invalid group lifecycle component: " ++ e))
        require (lifecycle = .disbanded)
          (.other "commit is invalid: terminal lifecycle update is not Disbanded")
        pure { shape with lifecycleUpdates := shape.lifecycleUpdates + 1 }
    else if update.componentId = groupAdminPolicyComponentId then
      match update.operation with
      | .remove => throw (.other "commit is invalid: disband must replace the admin policy")
      | .update data => do
        let admins ← decodeAdminPolicy data
        require (admins = [committerAdmin])
          (.other "commit is invalid: disband admin policy must contain only the committer")
        pure { shape with adminUpdates := shape.adminUpdates + 1 }
    else throw (.other "commit is invalid: disband contains a forbidden proposal")
  | _ => throw (.other "commit is invalid: disband contains a forbidden proposal")

/-- The shape of a commit that takes an active group to Disbanded. -/
def validateDisband : Except ComponentError Unit := do
  let some committer := group.memberAt staged.committer
    | throw (.other "commit is invalid: committer leaf is absent")
  let committerId ← validatedMemberId env committer
  let committerAdmin ← adminPubkeyFromMemberId committerId
  let shape ← staged.queuedProposals.foldlM (disbandProposal committerAdmin) ⟨0, 0, ∅⟩
  require (shape.lifecycleUpdates = 1 ∧ shape.adminUpdates = 1)
    (.other
      "commit is invalid: disband needs exactly one lifecycle and one admin-policy update")
  require (shape.removed =
      (group.memberIndexes.filter fun index => index ≠ staged.committer).toFinset)
    (.other
      "commit is invalid: disband must remove every source-state leaf except the committer")

/-- The proposals of a commit that enables the lifecycle component. -/
def validateEnablement : Except ComponentError Unit := do
  require (queued.proposalOrRefType = .proposal)
    (.other "commit is invalid: lifecycle enablement proposals must be inline")
  match queued.proposal with
  | .appDataUpdate update =>
    require (update.componentId = appComponentsComponentId ∨
        update.componentId = groupLifecycleComponentId)
      (.other "commit is invalid: lifecycle enablement contains unrelated proposals")
  | _ => throw (.other "commit is invalid: lifecycle enablement contains unrelated proposals")

def validateGroupLifecycleTransition :
    Except ComponentError Unit := do
  let before ← lifecycleFromExtensions group.extensions
  let after ← lifecycleFromExtensions staged.groupContext
  let beforeRequired ← requiredAppComponentsOfGroup group
  let afterRequired ← requiredAppComponentsOfExtensions staged.groupContext "resulting group state"
  require (before ≠ some .disbanded)
    (.other "commit is invalid: Disbanded has no outgoing transition")
  require (¬ (groupLifecycleComponentId ∈ beforeRequired ∧
      groupLifecycleComponentId ∉ afterRequired))
    (.other "commit is invalid: lifecycle-v1 cannot be un-required")
  if groupLifecycleComponentId ∉ beforeRequired ∧ groupLifecycleComponentId ∈ afterRequired then
    require (after = some .active)
      (.other "commit is invalid: lifecycle enablement must install Active")
    forM staged.queuedProposals validateEnablement
  else if before ≠ some .active ∨ after ≠ some .disbanded then
    require (before = after)
      (.other "commit is invalid: unsupported group lifecycle transition")
    require (∀ update ∈ staged.appDataUpdates, update.componentId ≠ groupLifecycleComponentId)
      (.other "commit is invalid: redundant lifecycle update")
  else
    require (groupLifecycleComponentId ∈ beforeRequired ∧
        groupLifecycleComponentId ∈ afterRequired)
      (.other "commit is invalid: disband requires lifecycle-v1 in the parent and result")
    validateDisband env group staged

def validateCurrentProfileInvariantsForStagedCommit :
    Except ComponentError Unit := do
  let profile ← protocolProfileOfGroup group
  if profile = .legacy then pure ()
  else
    let requiredComponents ←
      validateCurrentProfileGroupContext env staged.groupContext "resulting group state"
    let leaves ← conceptualResultingLeaves group staged
    validateResultingLeafCapabilities leaves staged.groupContext requiredComponents
    validateGroupLifecycleTransition env group staged

/-! ### Accepted commits -/

/-- All five validators succeed. -/
structure Accepted (group : MlsGroup) (staged : StagedCommit) : Prop where
  authorized : authorizeStagedCommitProposals env group staged = .ok ()
  admin : requireAdminForStagedCommit env group staged = .ok ()
  coupled : validateAdminLeafCouplingForStagedCommit group staged = .ok ()
  intact : validateAppComponentIntegrityForStagedCommit group staged = .ok ()
  profile : validateCurrentProfileInvariantsForStagedCommit env group staged = .ok ()

/-- The new node of a leaf that stays: the path's for the committer, an Update's for its
sender, and its own for the others.  An update keeps the leaf's account. -/
def StagedCommit.renewedLeaf (index : ℕ) (leaf : LeafNode) : LeafNode :=
  let renewed :=
    if index = staged.committer then staged.updatePathLeafNode
    else (staged.updateProposals.find? fun update => update.1 == .member index).map Prod.snd
  { renewed.getD leaf with identity := leaf.identity }

/-- A leaf joins at the leftmost blank. -/
def addLeaf (leaves : List (Option LeafNode)) (leaf : LeafNode) : List (Option LeafNode) :=
  match leaves with
  | [] => [some leaf]
  | none :: rest => some leaf :: rest
  | some other :: rest => some other :: addLeaf rest leaf

/-- The group after the commit: the leaves without the removed ones, with the added
ones, and the group context the commit came with. -/
def MlsGroup.merge : MlsGroup where
  extensions := staged.groupContext
  leaves := staged.addProposals.foldl addLeaf
    (group.leaves.mapIdx fun index leaf =>
      if index ∈ staged.removedLeaves then none else leaf.map (staged.renewedLeaf index))

end Mdk
