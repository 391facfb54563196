/-
App components: the state a group carries in its `app_data_dictionary`.

A component is a 16-bit id with bytes.  This file has the ids and the codecs that
decide what a group may do: the list of required components, the admin policy,
the lifecycle.

* `decodeAdminPolicy_ok` — a decoded admin policy names at least one admin, each
  once.
-/
import Mathlib
import Mdk.Checks

namespace Mdk

open Checks

/-! ### Component ids -/

abbrev AppComponentId := UInt16

/-- A set of component ids, ascending. -/
abbrev AppComponentSet := List AppComponentId

/-- An account key: the 32 bytes of a credential identity. -/
abbrev Account := List UInt8

def appComponentsComponentId : AppComponentId := 0x0001
def safeAadComponentId : AppComponentId := 0x0002
def groupProfileComponentId : AppComponentId := 0x8001
def groupBlossomImageComponentId : AppComponentId := 0x8002
def groupAdminPolicyComponentId : AppComponentId := 0x8003
def nostrRoutingComponentId : AppComponentId := 0x8004
def groupMessageRetentionComponentId : AppComponentId := 0x8005
def agentTextStreamQuicComponentId : AppComponentId := 0x8006
def groupAvatarUrlComponentId : AppComponentId := 0x8007
def groupEncryptedMediaV1ComponentId : AppComponentId := 0x8008
def accountIdentityProofComponentId : AppComponentId := 0x8009
def groupEncryptedMediaV2ComponentId : AppComponentId := 0x800b
def groupLifecycleComponentId : AppComponentId := 0x800c

/-- The id as error texts print it, `0x` and four hexadecimal digits. -/
def AppComponentId.text (id : AppComponentId) : String :=
  let digits := Nat.toDigits 16 id.toNat
  "0x" ++ String.ofList (List.replicate (4 - digits.length) '0' ++ digits)

/-- The errors of the validators of this file and of the commit validators. -/
inductive ComponentError where
  | serialize (text : String)
  | other (text : String)
  | backend (text : String)
  | invalidCredentialIdentity (text : String)
  | invalidAccountIdentityProof (text : String)
  | notGroupAdmin
  | adminCannotSelfRemove
  | unknownMember (member : Account)
deriving DecidableEq, Repr

/-! ### Codecs -/

variable (bytes : List UInt8)

/-- The value and the width of a canonical QUIC variable-length integer. -/
def decodeQuicVarint : Except String (ℕ × ℕ) := do
  let some first := bytes.head? | throw "missing QUIC varint"
  let width := 1 <<< (first >>> 6).toNat
  require (width ≤ bytes.length) "truncated QUIC varint"
  let value := ((bytes.take width).drop 1).foldl (fun value byte => value * 256 + byte.toNat)
    (first &&& 0x3f).toNat
  let minimalWidth :=
    if value < 64 then 1 else if value < 16384 then 2 else if value < 1073741824 then 4 else 8
  require (width = minimalWidth) "non-canonical QUIC varint length"
  pure (value, width)

/-- The first `count` chunks of `size` bytes. -/
def chunksExact (size : ℕ) : ℕ → List UInt8 → List (List UInt8)
  | 0, _ => []
  | count + 1, bytes => bytes.take size :: chunksExact size count (bytes.drop size)

/-- The ids of the chunks after those already read, each above the one before it. -/
def readComponentIds (ids : AppComponentSet) : List (List UInt8) → Except String AppComponentSet
  | [] => pure ids
  | chunk :: chunks => do
    let id : AppComponentId :=
      UInt16.ofNat ((chunk.headD 0).toNat * 256 + ((chunk.drop 1).headD 0).toNat)
    require (id ∉ ids) "component list contains duplicate ids"
    require ((ids.getLast?.any fun previous => id < previous) = false)
      "component list is not sorted"
    readComponentIds (ids ++ [id]) chunks

def decodeComponentsList : Except String AppComponentSet := do
  let (len, prefixLen) ← decodeQuicVarint bytes
  require (prefixLen + len = bytes.length) "component list has trailing bytes"
  require (len % 2 = 0) "component list byte length must be even"
  readComponentIds [] (chunksExact 2 (len / 2) (bytes.drop prefixLen))

inductive GroupLifecycleV1 where
  | active
  | disbanded
deriving DecidableEq, Repr

def decodeGroupLifecycleV1 : List UInt8 → Except String GroupLifecycleV1
  | [0] => pure .active
  | [1] => pure .disbanded
  | [] => throw "group lifecycle state is empty"
  | [_] => throw "group lifecycle state is unknown"
  | _ => throw "group lifecycle state has trailing bytes"

def decodeAdminPolicy : Except ComponentError (List Account) := do
  let (len, prefixLen) ← (decodeQuicVarint bytes).mapError fun e =>
    .serialize ("admin policy length decode failed: " ++ e)
  require (prefixLen + len = bytes.length) (.serialize "admin policy has trailing bytes")
  require (len ≠ 0 ∧ len % 32 = 0)
    (.serialize "admin policy must contain one or more 32-byte keys")
  let admins := chunksExact 32 (len / 32) (bytes.drop prefixLen)
  require ((admins.insertionSort (· ≤ ·)).dedup = admins)
    (.serialize "admin policy keys must be sorted and unique")
  pure admins

/-- A decoded admin policy names at least one admin and none twice. -/
theorem decodeAdminPolicy_ok {bytes : List UInt8} {admins : List Account}
    (h : decodeAdminPolicy bytes = .ok admins) : admins ≠ [] ∧ admins.Nodup := by
  simp only [decodeAdminPolicy, bind_eq_ok, mapError_eq_ok, require_eq_ok, pure_eq_ok] at h
  obtain ⟨⟨len, prefixLen⟩, _, _, _, _, ⟨hlen, hmod⟩, _, hsorted, rfl⟩ := h
  refine ⟨?_, hsorted ▸ List.nodup_dedup _⟩
  obtain ⟨count, hcount⟩ : ∃ count, len / 32 = count + 1 := ⟨len / 32 - 1, by omega⟩
  rw [hcount]
  exact List.cons_ne_nil _ _

end Mdk
