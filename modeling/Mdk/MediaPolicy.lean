/-
The encrypted-media policies of a group, first and second version.

A policy names a format, the kinds of blob locator that are allowed, and default endpoints of
these kinds.  The encoder normalizes: it trims and lowercases kinds, puts URLs into normal
form, and drops what is repeated.  The decoder repairs nothing: it accepts only what the
encoder would leave alone.  The two versions differ in the format and in the rule for URLs.

* `decodeEncryptedMediaPolicy_eq_ok` — the decoder accepts exactly the encodings of canonical
  policies;
* **`policy_roundTrips`** — every policy has one encoding.
-/
import Mdk.ComponentCodec
import Mdk.ItemLoop
import Mdk.UrlRules

namespace Mdk

open Checks List

/-! ### Locator kinds -/

def locatorKindMaxLen : ℕ := 64

def endpointUrlMaxLen : ℕ := 2048

def maxLocatorKinds : ℕ := 16

def maxBlobEndpoints : ℕ := 16

/-- `a-z`, `0-9` and `-`. -/
def isLocatorKindByte (byte : UInt8) : Bool :=
  (0x61 ≤ byte && byte ≤ 0x7a) || (0x30 ≤ byte && byte ≤ 0x39) || byte == 0x2d

def validateLocatorKind (value label : String) : Except String Unit := do
  require (value ≠ "") (label ++ " must not be empty")
  require (value.utf8ByteSize ≤ locatorKindMaxLen)
    (label ++ " exceeds " ++ toString locatorKindMaxLen ++ " bytes")
  require ((utf8Bytes value).all isLocatorKindByte)
    (label ++ " must contain only lowercase ASCII letters, digits, and '-'")

def normalizeLocatorKind (value label : String) : Except String String := do
  let value := toAsciiLowercase (trim value)
  validateLocatorKind value label
  pure value

/-- A valid kind, whatever it is called in messages. -/
def ValidKind (kind : String) : Prop :=
  kind ≠ "" ∧ kind.utf8ByteSize ≤ locatorKindMaxLen ∧ (utf8Bytes kind).all isLocatorKindByte

theorem validateLocatorKind_ok {kind label : String} {u : Unit} :
    validateLocatorKind kind label = .ok u ↔ ValidKind kind := by
  simp only [validateLocatorKind, bind_eq_ok, require_eq_ok, exists_const, ValidKind]

theorem isLocatorKindByte_char {c : Char} (hlt : c.toNat < 128)
    (h : isLocatorKindByte (UInt8.ofNat c.toNat)) : isWhiteSpace c = false ∧ c.toLower = c := by
  have hall : ∀ n < 128, isLocatorKindByte (UInt8.ofNat n) →
      isWhiteSpace (Char.ofNat n) = false ∧ (Char.ofNat n).toLower = Char.ofNat n := by decide
  have hc := hall c.toNat hlt h
  rwa [Char.ofNat_toNat] at hc

variable {kind : String}

/-- A valid kind has neither white space nor capital letters. -/
theorem ValidKind.normal (h : ValidKind kind) : toAsciiLowercase (trim kind) = kind := by
  have hbyte : ∀ b ∈ utf8Bytes kind, isLocatorKindByte b := all_eq_true.mp h.2.2
  have hascii : ∀ b ∈ utf8Bytes kind, b.toNat < 128 := by
    intro b hb
    have := hbyte b hb
    simp only [isLocatorKindByte, Bool.or_eq_true, Bool.and_eq_true, decide_eq_true_eq,
      beq_iff_eq, UInt8.le_iff_toNat_le, ← UInt8.toNat_inj, UInt8.reduceToNat] at this
    omega
  have hchar : ∀ c ∈ kind.toList, isWhiteSpace c = false ∧ c.toLower = c := by
    intro c hc
    obtain ⟨hlt, hmem⟩ := ascii_of_utf8Bytes hascii hc
    exact isLocatorKindByte_char hlt (hbyte _ hmem)
  rw [trim_of_not_white fun c hc => (hchar c hc).1, toAsciiLowercase]
  have hmap : kind.toList.map Char.toLower = kind.toList :=
    (map_congr_left fun c hc => (hchar c hc).2).trans (map_id _)
  rw [hmap, String.ofList_toList]

theorem normalizeLocatorKind_ok {value label kind : String}
    (h : normalizeLocatorKind value label = .ok kind) : ValidKind kind := by
  simp only [normalizeLocatorKind, bind_eq_ok, pure_eq_ok] at h
  obtain ⟨_, hvalid, rfl⟩ := h
  exact validateLocatorKind_ok.mp hvalid

theorem normalizeLocatorKind_self {kind label : String} (h : ValidKind kind) :
    normalizeLocatorKind kind label = .ok kind := by
  simp only [normalizeLocatorKind, h.normal, bind_eq_ok, pure_eq_ok]
  exact ⟨(), validateLocatorKind_ok.mpr h, trivial⟩

/-! ### Endpoint URLs -/

def endpointUrlLabel : String := "encrypted media endpoint URL"

variable (parser : UrlParser)

def noCredentials (label url : String) : Except String Unit :=
  require (parser.username url = "" ∧ parser.password url = none)
    (label ++ " must not include credentials")

def noFragment (label url : String) : Except String Unit :=
  require (parser.fragment url = none) (label ++ " must not include a fragment")

/-- Where an `https` endpoint may point. -/
def checkHttpsHost : Host → Except String Unit
  | .domain name => require (¬ isLoopbackDomain name)
      "encrypted media https endpoint must not point at localhost"
  | .ipv4 a b c _ => (rejectNonRoutableIpv4 a b c).mapError fun _ =>
      "encrypted media endpoint URL must not point at a non-routable address"
  | .ipv6 segments => (rejectNonRoutableIpv6 segments).mapError fun _ =>
      "encrypted media endpoint URL must not point at a non-routable address"

variable (allowLoopbackHttp : Bool)

def checkEndpointHost (scheme : String) :
    Option Host → Except String Unit
  | none => throw "encrypted media endpoint URL must include a host"
  | some host =>
    if scheme = "https" then checkHttpsHost host
    else if scheme = "http" then require (allowLoopbackHttp ∧ isLoopbackHost host)
      ("encrypted media endpoint URL scheme must be https unless loopback http is " ++
        "explicitly allowed")
    else throw "encrypted media endpoint URL scheme must be https"

theorem checkEndpointHost_scheme {allow : Bool} {scheme : String} {host : Option Host}
    (h : checkEndpointHost allow scheme host = .ok ()) : scheme ≠ "" := by
  rintro rfl
  cases host with
  | none => cases h
  | some host => cases h

/-- Queries are allowed. -/
def blobEndpointRule : UrlRule where
  label := endpointUrlLabel
  trims := true
  maxLen := endpointUrlMaxLen
  check url := do
    noCredentials parser endpointUrlLabel url
    noFragment parser endpointUrlLabel url
    checkEndpointHost allowLoopbackHttp (scheme url) (parser.host url)
  check_scheme := by
    intro url h
    simp only [bind_eq_ok] at h
    obtain ⟨_, _, _, _, hhost⟩ := h
    exact checkEndpointHost_scheme hhost

/-- Any host and both schemes, but no query. -/
def blobEndpointRuleV2 : UrlRule where
  label := endpointUrlLabel
  trims := true
  maxLen := endpointUrlMaxLen
  check url := do
    require (scheme url = "http" ∨ scheme url = "https")
      "encrypted media endpoint URL scheme must be http or https"
    noCredentials parser endpointUrlLabel url
    require (parser.host url).isSome "encrypted media endpoint URL must include a host"
    require (parser.query url = none) "encrypted media endpoint URL must not include a query"
    noFragment parser endpointUrlLabel url
  check_scheme := by
    intro url h
    simp only [bind_eq_ok, require_eq_ok] at h
    obtain ⟨_, hscheme | hscheme, _⟩ := h
    · rw [hscheme]
      decide
    · rw [hscheme]
      decide

def validateAndNormalizeBlobEndpointUrl (raw : String) (allowLoopbackHttp : Bool) :
    Except String String :=
  normalizeUrl parser (blobEndpointRule parser allowLoopbackHttp) raw

def validateAndNormalizeBlobEndpointUrlV2 (raw : String) : Except String String :=
  normalizeUrl parser (blobEndpointRuleV2 parser) raw

/-! ### Policies -/

structure BlobStoreEndpoint where
  locatorKind : String
  baseUrl : String
  deriving DecidableEq

structure EncryptedMediaPolicy where
  mediaFormat : String
  allowedLocatorKinds : List String
  defaultBlobEndpoints : List BlobStoreEndpoint

def mediaFormatMaxLen : ℕ := 64

/-- The values in which the two versions differ. -/
structure MediaVersion where
  format : String
  normalizeEndpointUrl : String → Except String String
  trim_format : trim format = format
  format_len : (utf8Bytes format).length ≤ mediaFormatMaxLen
  normalize_self : ∀ {raw url}, normalizeEndpointUrl raw = .ok url →
    normalizeEndpointUrl url = .ok url ∧ url ≠ "" ∧ url.utf8ByteSize ≤ endpointUrlMaxLen

def mediaV1 : MediaVersion where
  format := "encrypted-media-v1"
  normalizeEndpointUrl raw := validateAndNormalizeBlobEndpointUrl parser raw allowLoopbackHttp
  trim_format := by decide +kernel
  format_len := by decide +kernel
  normalize_self h := normalizeUrl_self h

def mediaV2 : MediaVersion where
  format := "encrypted-media-v2"
  normalizeEndpointUrl := validateAndNormalizeBlobEndpointUrlV2 parser
  trim_format := by decide +kernel
  format_len := by decide +kernel
  normalize_self h := normalizeUrl_self h

def checkLocatorKindCount (kinds : List String) : Except String Unit := do
  require (kinds ≠ []) "encrypted media policy must allow at least one locator kind"
  require (kinds.length ≤ maxLocatorKinds)
    ("encrypted media policy allows more than " ++ toString maxLocatorKinds ++ " locator kinds")

def checkEndpointCount (endpoints : List BlobStoreEndpoint) : Except String Unit := do
  require (endpoints ≠ []) "encrypted media policy must include at least one default blob endpoint"
  require (endpoints.length ≤ maxBlobEndpoints)
    ("encrypted media policy includes more than " ++ toString maxBlobEndpoints ++
      " default blob endpoints")

def checkMediaFormat (version : MediaVersion) (mediaFormat : String) : Except String Unit :=
  require (mediaFormat = version.format) ("encrypted media format must be " ++ version.format)

def notAllowed : String := "encrypted media endpoint locator kind is not allowed"

variable (version : MediaVersion)

section

variable (kinds : List String) (endpoint : BlobStoreEndpoint)

def normalizeEndpoint :
    Except String BlobStoreEndpoint := do
  let locatorKind ← normalizeLocatorKind endpoint.locatorKind "endpoint locator kind"
  require (locatorKind ∈ kinds) notAllowed
  let baseUrl ← version.normalizeEndpointUrl endpoint.baseUrl
  pure ⟨locatorKind, baseUrl⟩

/-- The producer's constructor: it repairs what it can. -/
def EncryptedMediaPolicy.new (mediaFormat : String) (allowedLocatorKinds : List String)
    (endpoints : List BlobStoreEndpoint) : Except String EncryptedMediaPolicy := do
  let mediaFormat := trim mediaFormat
  checkMediaFormat version mediaFormat
  let kinds ← normalizeItems (normalizeLocatorKind · "allowed locator kind") allowedLocatorKinds []
  checkLocatorKindCount kinds
  let endpoints ← normalizeItems (normalizeEndpoint version kinds) endpoints []
  checkEndpointCount endpoints
  pure ⟨mediaFormat, kinds, endpoints⟩

def encodeKind (kind : String) : List UInt8 := encodeVarBytes (utf8Bytes kind)

/-- Endpoints have no length of their own. -/
def encodeEndpoint : List UInt8 :=
  encodeVarBytes (utf8Bytes endpoint.locatorKind) ++ encodeVarBytes (utf8Bytes endpoint.baseUrl)

def EncryptedMediaPolicy.bytes (policy : EncryptedMediaPolicy) : List UInt8 :=
  encodeComponentVectors [utf8Bytes policy.mediaFormat,
    policy.allowedLocatorKinds.flatMap encodeKind,
    policy.defaultBlobEndpoints.flatMap encodeEndpoint]

def encodeEncryptedMediaPolicy (policy : EncryptedMediaPolicy) : Except String (List UInt8) := do
  let policy ← EncryptedMediaPolicy.new version policy.mediaFormat policy.allowedLocatorKinds
    policy.defaultBlobEndpoints
  pure policy.bytes

def locatorKindsVectorMaxLen : ℕ := maxLocatorKinds * (locatorKindMaxLen + 2)

def endpointEntryMaxLen : ℕ := (locatorKindMaxLen + 2) + (endpointUrlMaxLen + 2)

def blobEndpointsVectorMaxLen : ℕ := maxBlobEndpoints * (endpointEntryMaxLen + 2)

def fromUtf8 (bytes : List UInt8) (label : String) : Except String String :=
  match ofUtf8? bytes with
  | some text => .ok text
  | none => .error (label ++ " is not UTF-8")

def checkLocatorKind (kind : String) : Except String Unit :=
  validateLocatorKind kind "allowed locator kind"

def decodeKind (cursor : List UInt8) :
    Except String (List String × List UInt8) := do
  let (kind, cursor) ← decodeVarBytes cursor locatorKindMaxLen "encrypted media locator kind"
  let kind ← fromUtf8 kind "encrypted media locator kind"
  let kinds ← pushUnique checkLocatorKind
    "encrypted media policy has a duplicate allowed locator kind" kinds kind
  pure (kinds, cursor)

def validateUrlIsCanonical (baseUrl : String) : Except String Unit := do
  let normalized ← version.normalizeEndpointUrl baseUrl
  require (normalized = baseUrl) "encrypted media endpoint base URL is not normalized"

def checkEndpoint : Except String Unit := do
  validateLocatorKind endpoint.locatorKind "endpoint locator kind"
  require (endpoint.locatorKind ∈ kinds) notAllowed
  validateUrlIsCanonical version endpoint.baseUrl

def decodeEndpoint (endpoints : List BlobStoreEndpoint) (cursor : List UInt8) :
    Except String (List BlobStoreEndpoint × List UInt8) := do
  let (kind, cursor) ←
    decodeVarBytes cursor locatorKindMaxLen "encrypted media endpoint locator kind"
  let (url, cursor) ← decodeVarBytes cursor endpointUrlMaxLen "encrypted media endpoint base URL"
  let locatorKind ← fromUtf8 kind "encrypted media endpoint locator kind"
  let baseUrl ← fromUtf8 url "encrypted media endpoint base URL"
  let endpoints ← pushUnique (checkEndpoint version kinds)
    "encrypted media policy has a duplicate default blob endpoint" endpoints ⟨locatorKind, baseUrl⟩
  pure (endpoints, cursor)

end

/-- The strict decoder: every check is a validation. -/
def decodeEncryptedMediaPolicy (bytes : List UInt8) : Except String EncryptedMediaPolicy := do
  let (mediaFormat, cursor) ← decodeVarBytes bytes mediaFormatMaxLen "encrypted media format"
  let (allowed, cursor) ←
    decodeVarBytes cursor locatorKindsVectorMaxLen "encrypted media locator kinds"
  let (endpoints, cursor) ←
    decodeVarBytes cursor blobEndpointsVectorMaxLen "encrypted media default blob endpoints"
  require (cursor = []) "encrypted media policy has trailing bytes"
  let mediaFormat ← fromUtf8 mediaFormat "encrypted media format"
  checkMediaFormat version mediaFormat
  let kinds ← decodeItems decodeKind allowed.length [] allowed
  checkLocatorKindCount kinds
  let endpoints ← decodeItems (decodeEndpoint version kinds) endpoints.length [] endpoints
  checkEndpointCount endpoints
  pure ⟨mediaFormat, kinds, endpoints⟩

/-! ### Canonical policies -/

structure CanonicalEndpoint (kinds : List String) (endpoint : BlobStoreEndpoint) : Prop where
  kind : ValidKind endpoint.locatorKind
  allowed : endpoint.locatorKind ∈ kinds
  url : version.normalizeEndpointUrl endpoint.baseUrl = .ok endpoint.baseUrl

/-- A policy that the producer leaves alone. -/
structure CanonicalPolicy (policy : EncryptedMediaPolicy) : Prop where
  format : policy.mediaFormat = version.format
  kinds : policy.allowedLocatorKinds.Nodup
  kinds_valid : ∀ kind ∈ policy.allowedLocatorKinds, ValidKind kind
  kinds_count : checkLocatorKindCount policy.allowedLocatorKinds = .ok ()
  endpoints : policy.defaultBlobEndpoints.Nodup
  endpoints_valid : ∀ endpoint ∈ policy.defaultBlobEndpoints,
    CanonicalEndpoint version policy.allowedLocatorKinds endpoint
  endpoints_count : checkEndpointCount policy.defaultBlobEndpoints = .ok ()

variable {version} {kinds : List String} {policy : EncryptedMediaPolicy}

theorem normalizeEndpoint_ok {raw endpoint : BlobStoreEndpoint}
    (h : normalizeEndpoint version kinds raw = .ok endpoint) :
    CanonicalEndpoint version kinds endpoint := by
  simp only [normalizeEndpoint, bind_eq_ok, require_eq_ok, pure_eq_ok] at h
  obtain ⟨kind, hkind, _, hmem, url, hurl, rfl⟩ := h
  exact ⟨normalizeLocatorKind_ok hkind, hmem, (version.normalize_self hurl).1⟩

variable {endpoint : BlobStoreEndpoint}

theorem CanonicalEndpoint.normalize (h : CanonicalEndpoint version kinds endpoint) :
    normalizeEndpoint version kinds endpoint = .ok endpoint := by
  simp only [normalizeEndpoint, bind_eq_ok, require_eq_ok, pure_eq_ok]
  exact ⟨_, normalizeLocatorKind_self h.kind, (), h.allowed, _, h.url, rfl⟩

open EncryptedMediaPolicy

/-- What the constructor makes is canonical. -/
theorem EncryptedMediaPolicy.new_canonical {format : String} {kinds : List String}
    {endpoints : List BlobStoreEndpoint}
    (h : new version format kinds endpoints = .ok policy) :
    CanonicalPolicy version policy := by
  simp only [new, checkMediaFormat, bind_eq_ok, require_eq_ok,
    pure_eq_ok] at h
  obtain ⟨_, hformat, kinds', hkinds, _, hcount, endpoints', hendpoints, _, hcount', rfl⟩ := h
  obtain ⟨hnodup, hvalid⟩ := normalizeItems_spec (fun _ _ => normalizeLocatorKind_ok)
    nodup_nil (fun _ hmem => absurd hmem not_mem_nil) hkinds
  obtain ⟨hnodup', hvalid'⟩ := normalizeItems_spec (fun _ _ => normalizeEndpoint_ok)
    nodup_nil (fun _ hmem => absurd hmem not_mem_nil) hendpoints
  exact ⟨hformat, hnodup, hvalid, hcount, hnodup', hvalid', hcount'⟩

/-- A canonical policy is left alone. -/
theorem CanonicalPolicy.new_self (h : CanonicalPolicy version policy) :
    new version policy.mediaFormat policy.allowedLocatorKinds
      policy.defaultBlobEndpoints = .ok policy := by
  have hkinds : normalizeItems (normalizeLocatorKind · "allowed locator kind")
      policy.allowedLocatorKinds [] = .ok policy.allowedLocatorKinds :=
    normalizeItems_self (fun kind hkind => normalizeLocatorKind_self (h.kinds_valid kind hkind))
      h.kinds
  have hendpoints : normalizeItems (normalizeEndpoint version policy.allowedLocatorKinds)
      policy.defaultBlobEndpoints [] = .ok policy.defaultBlobEndpoints :=
    normalizeItems_self (fun endpoint hmem => (h.endpoints_valid endpoint hmem).normalize)
      h.endpoints
  have hformat : trim policy.mediaFormat = policy.mediaFormat := by
    rw [h.format, version.trim_format]
  simp only [new, checkMediaFormat, hformat, bind_eq_ok, require_eq_ok,
    pure_eq_ok]
  exact ⟨(), h.format, _, hkinds, (), h.kinds_count, _, hendpoints, (), h.endpoints_count, rfl⟩

/-! ### The strict decoder -/

variable {bytes : List UInt8}

theorem fromUtf8_eq_ok {label text : String} :
    fromUtf8 bytes label = .ok text ↔ utf8Bytes text = bytes := by
  rw [← ofUtf8?_eq_some, fromUtf8]
  cases ofUtf8? bytes with
  | none => simp
  | some text' => simp

theorem validateUrlIsCanonical_ok {url : String} {u : Unit} :
    validateUrlIsCanonical version url = .ok u ↔ version.normalizeEndpointUrl url = .ok url := by
  simp only [validateUrlIsCanonical, bind_eq_ok, require_eq_ok]
  exact ⟨fun ⟨_, hurl, heq⟩ => heq ▸ hurl, fun hurl => ⟨url, hurl, rfl⟩⟩

theorem checkEndpoint_ok :
    checkEndpoint version kinds endpoint = .ok () ↔ CanonicalEndpoint version kinds endpoint := by
  simp only [checkEndpoint, bind_eq_ok, require_eq_ok, validateLocatorKind_ok,
    validateUrlIsCanonical_ok, exists_const]
  exact ⟨fun ⟨hkind, hmem, hurl⟩ => ⟨hkind, hmem, hurl⟩, fun h => ⟨h.kind, h.allowed, h.url⟩⟩

theorem CanonicalEndpoint.url_len (h : CanonicalEndpoint version kinds endpoint) :
    (utf8Bytes endpoint.baseUrl).length ≤ endpointUrlMaxLen := by
  rw [length_utf8Bytes]
  exact (version.normalize_self h.url).2.2

theorem ValidKind.len (h : ValidKind kind) : (utf8Bytes kind).length ≤ locatorKindMaxLen := by
  rw [length_utf8Bytes]
  exact h.2.1

/-- One kind is read off the cursor exactly if the cursor begins with its encoding. -/
theorem decodeKind_eq_ok {seen seen' : List String} {cursor rest : List UInt8} :
    decodeKind seen cursor = .ok (seen', rest) ↔
      ∃ kind, cursor = encodeKind kind ++ rest ∧
        pushUnique checkLocatorKind "encrypted media policy has a duplicate allowed locator kind"
          seen kind = .ok seen' := by
  simp only [decodeKind, bind_eq_ok, pure_eq_ok, Prod.exists, Prod.mk.injEq, fromUtf8_eq_ok]
  constructor
  · rintro ⟨_, rest', hread, kind, rfl, seen'', hpush, rfl, rfl⟩
    exact ⟨kind, ((decodeVarBytes_eq_ok (by decide)).mp hread).1, hpush⟩
  · rintro ⟨kind, rfl, hpush⟩
    have hcheck : checkLocatorKind kind = .ok () := pushUnique_check hpush
    have hvalid := validateLocatorKind_ok.mp hcheck
    exact ⟨utf8Bytes kind, rest, (decodeVarBytes_eq_ok (by decide)).mpr ⟨rfl, hvalid.len⟩,
      kind, rfl, seen', hpush, rfl, rfl⟩

/-- One endpoint is read off the cursor exactly if the cursor begins with its encoding. -/
theorem decodeEndpoint_eq_ok {seen seen' : List BlobStoreEndpoint} {cursor rest : List UInt8} :
    decodeEndpoint version kinds seen cursor = .ok (seen', rest) ↔
      ∃ endpoint, cursor = encodeEndpoint endpoint ++ rest ∧
        pushUnique (checkEndpoint version kinds)
          "encrypted media policy has a duplicate default blob endpoint" seen endpoint =
            .ok seen' := by
  simp only [decodeEndpoint, bind_eq_ok, pure_eq_ok, Prod.exists, Prod.mk.injEq, fromUtf8_eq_ok]
  constructor
  · rintro ⟨_, cursor', hkind, _, rest', hurl, kind, rfl, url, rfl, seen'', hpush, rfl, rfl⟩
    refine ⟨⟨kind, url⟩, ?_, hpush⟩
    rw [encodeEndpoint, append_assoc, ← ((decodeVarBytes_eq_ok (by decide)).mp hurl).1]
    exact ((decodeVarBytes_eq_ok (by decide)).mp hkind).1
  · rintro ⟨endpoint, rfl, hpush⟩
    have hvalid := checkEndpoint_ok.mp (pushUnique_check hpush)
    rw [encodeEndpoint, append_assoc]
    exact ⟨_, _, (decodeVarBytes_eq_ok (by decide)).mpr ⟨rfl, hvalid.kind.len⟩,
      _, rest, (decodeVarBytes_eq_ok (by decide)).mpr ⟨rfl, hvalid.url_len⟩,
      endpoint.locatorKind, rfl, endpoint.baseUrl, rfl, seen', hpush, rfl, rfl⟩

theorem encodeKind_length (h : ValidKind kind) : (encodeKind kind).length ≤ locatorKindMaxLen + 2 :=
  length_encodeVarBytes_le (by decide) h.len

theorem encodeEndpoint_length (h : CanonicalEndpoint version kinds endpoint) :
    (encodeEndpoint endpoint).length ≤ endpointEntryMaxLen + 2 := by
  have hkind := length_encodeVarBytes_le (by decide) h.kind.len
  have hurl := length_encodeVarBytes_le (by decide) h.url_len
  rw [encodeEndpoint, length_append]
  unfold endpointEntryMaxLen
  omega

theorem decodeItems_kinds {kinds : List String} :
    decodeItems decodeKind bytes.length [] bytes = .ok kinds ↔
      bytes = kinds.flatMap encodeKind ∧ kinds.Nodup ∧ ∀ kind ∈ kinds, ValidKind kind := by
  have hloop := decodeItems_unique (fun _ _ _ _ => decodeKind_eq_ok)
    (fun kind => encodeVarBytes_ne_nil (utf8Bytes kind)) bytes kinds
  simpa only [checkLocatorKind, validateLocatorKind_ok] using hloop

theorem decodeItems_endpoints {endpoints : List BlobStoreEndpoint} :
    decodeItems (decodeEndpoint version kinds) bytes.length [] bytes = .ok endpoints ↔
      bytes = endpoints.flatMap encodeEndpoint ∧ endpoints.Nodup ∧
        ∀ endpoint ∈ endpoints, CanonicalEndpoint version kinds endpoint := by
  have hloop := decodeItems_unique
    (fun seen cursor seen' rest => @decodeEndpoint_eq_ok version kinds seen seen' cursor rest)
    (fun endpoint => append_ne_nil_of_left_ne_nil (encodeVarBytes_ne_nil _) _) bytes endpoints
  simpa only [checkEndpoint_ok] using hloop

/-- The outer bounds of the decoder leave room for every canonical policy. -/
theorem CanonicalPolicy.vector_lengths (h : CanonicalPolicy version policy) :
    (policy.allowedLocatorKinds.flatMap encodeKind).length ≤ locatorKindsVectorMaxLen ∧
    (policy.defaultBlobEndpoints.flatMap encodeEndpoint).length ≤ blobEndpointsVectorMaxLen := by
  have hkinds := h.kinds_count
  have hendpoints := h.endpoints_count
  simp only [checkLocatorKindCount, checkEndpointCount, bind_eq_ok, require_eq_ok,
    exists_const] at hkinds hendpoints
  exact ⟨length_flatMap_le (fun kind hmem => encodeKind_length (h.kinds_valid kind hmem)) hkinds.2,
    length_flatMap_le (fun endpoint hmem => encodeEndpoint_length (h.endpoints_valid endpoint hmem))
      hendpoints.2⟩

/-- The decoder accepts exactly the encodings of canonical policies. -/
theorem decodeEncryptedMediaPolicy_eq_ok :
    decodeEncryptedMediaPolicy version bytes = .ok policy ↔
      CanonicalPolicy version policy ∧ bytes = policy.bytes := by
  simp only [decodeEncryptedMediaPolicy, checkMediaFormat, bind_eq_ok, require_eq_ok, pure_eq_ok,
    Prod.exists, fromUtf8_eq_ok, decodeItems_kinds, decodeItems_endpoints,
    EncryptedMediaPolicy.bytes, encodeComponentVectors, flatMap_cons, flatMap_nil]
  constructor
  · rintro ⟨_, _, hformat, _, _, hallowed, _, _, hendpoints, _, rfl, format, rfl, _, hversion,
      kinds, ⟨rfl, hnodup, hvalid⟩, _, hcount, endpoints, ⟨rfl, hnodup', hvalid'⟩, _, hcount', rfl⟩
    refine ⟨⟨hversion, hnodup, hvalid, hcount, hnodup', hvalid', hcount'⟩, ?_⟩
    rw [← ((decodeVarBytes_eq_ok (by decide)).mp hendpoints).1,
      ← ((decodeVarBytes_eq_ok (by decide)).mp hallowed).1]
    exact ((decodeVarBytes_eq_ok (by decide)).mp hformat).1
  · rintro ⟨h, rfl⟩
    obtain ⟨hkinds, hendpoints⟩ := h.vector_lengths
    have hformat : (utf8Bytes policy.mediaFormat).length ≤ mediaFormatMaxLen := by
      rw [h.format]
      exact version.format_len
    exact ⟨_, _, (decodeVarBytes_eq_ok (by decide)).mpr ⟨rfl, hformat⟩,
      _, _, (decodeVarBytes_eq_ok (by decide)).mpr ⟨rfl, hkinds⟩,
      _, _, (decodeVarBytes_eq_ok (by decide)).mpr ⟨rfl, hendpoints⟩,
      (), rfl, _, rfl, (), h.format, _, ⟨rfl, h.kinds, h.kinds_valid⟩, (), h.kinds_count,
      _, ⟨rfl, h.endpoints, h.endpoints_valid⟩, (), h.endpoints_count, rfl⟩

/-- Every policy has one encoding. -/
theorem policy_roundTrips (version : MediaVersion) :
    RoundTrips (encodeEncryptedMediaPolicy version) (decodeEncryptedMediaPolicy version) := by
  refine RoundTrips.of_canonical ?_ ?_ fun bytes policy => decodeEncryptedMediaPolicy_eq_ok
  · intro policy bytes h
    simp only [encodeEncryptedMediaPolicy, bind_eq_ok, pure_eq_ok] at h
    obtain ⟨policy', hnew, rfl⟩ := h
    exact ⟨policy', new_canonical hnew, rfl⟩
  · intro policy h
    simp only [encodeEncryptedMediaPolicy, bind_eq_ok, pure_eq_ok]
    exact ⟨policy, h.new_self, rfl⟩

/-! ### The two versions -/

def encodeEncryptedMediaPolicyV1 : EncryptedMediaPolicy → Except String (List UInt8) :=
  encodeEncryptedMediaPolicy (mediaV1 parser true)

def decodeEncryptedMediaPolicyV1 : List UInt8 → Except String EncryptedMediaPolicy :=
  decodeEncryptedMediaPolicy (mediaV1 parser true)

def encodeEncryptedMediaPolicyV2 : EncryptedMediaPolicy → Except String (List UInt8) :=
  encodeEncryptedMediaPolicy (mediaV2 parser)

def decodeEncryptedMediaPolicyV2 : List UInt8 → Except String EncryptedMediaPolicy :=
  decodeEncryptedMediaPolicy (mediaV2 parser)

end Mdk
