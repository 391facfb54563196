/-
Routing, avatar and image state of a group.

The three codecs that are left check more than they normalize.  Relay lists are validated and
never repaired; avatar URLs are put into normal form; the media type of an image is cut at its
parameters, trimmed and lowercased.  Each decoder accepts exactly the encodings of states its
encoder leaves alone.

* `canonicalizeMarmotMediaType_self` — canonical media types are left alone;
* `routing_roundTrips`, `avatar_roundTrips`, `image_roundTrips`;
* **`components_roundTrip`** — each of the five component states has one encoding.
-/
import Mdk.MediaPolicy

namespace Mdk

open Checks List

/-! ### Nostr routing -/

def nostrRoutingMaxRelays : ℕ := 16

def nostrRelayUrlMaxLen : ℕ := 512

def nostrRelayVectorMaxLen : ℕ := nostrRoutingMaxRelays * (nostrRelayUrlMaxLen + 2)

structure NostrRoutingV1 where
  nostrGroupId : List UInt8
  relays : List String
  length_id : nostrGroupId.length = 32

def tooManyRelays : String :=
  "Nostr routing component must contain at most " ++ toString nostrRoutingMaxRelays ++ " relays"

def validateNostrRelayCount (count : ℕ) : Except String Unit := do
  require (count ≠ 0) "Nostr routing component must contain at least one relay"
  require (count ≤ nostrRoutingMaxRelays) tooManyRelays

def relayUrlLabel : String := "Nostr relay URL"

section

variable (parser : UrlParser)

/-- A relay URL is checked after parsing, and kept as it was written. -/
def validateNostrRelayUrl (relay : String) : Except String Unit := do
  require (relay ≠ "") "Nostr relay URL must not be empty"
  require (relay.utf8ByteSize ≤ nostrRelayUrlMaxLen)
    ("Nostr relay URL exceeds " ++ toString nostrRelayUrlMaxLen ++ " bytes")
  let url ← (parser.parse relay).mapError ("Nostr relay URL is invalid: " ++ ·)
  require (scheme url = "wss" ∨ scheme url = "ws") "Nostr relay URL scheme must be wss or ws"
  require (parser.host url).isSome "Nostr relay URL must include a host"
  noCredentials parser relayUrlLabel url
  noFragment parser relayUrlLabel url

variable (relays : List String)

/-- Sorted by bytes, without equal neighbours. -/
def sortedUnique : List String :=
  (relays.mergeSort fun a b => utf8Bytes a ≤ utf8Bytes b).destutter (· ≠ ·)

def validateNostrRouting : Except String Unit := do
  validateNostrRelayCount relays.length
  require (sortedUnique relays = relays) "Nostr relay URLs must be sorted and unique"
  relays.forM (validateNostrRelayUrl parser)

def encodeRelay (relay : String) : List UInt8 := encodeVarBytes (utf8Bytes relay)

def NostrRoutingV1.bytes (routing : NostrRoutingV1) : List UInt8 :=
  routing.nostrGroupId ++ encodeVarBytes (routing.relays.flatMap encodeRelay)

def encodeNostrRoutingV1 (routing : NostrRoutingV1) :
    Except String (List UInt8) := do
  validateNostrRouting parser routing.relays
  pure routing.bytes

def decodeRelay (cursor : List UInt8) :
    Except String (List String × List UInt8) := do
  require (relays.length ≠ nostrRoutingMaxRelays) tooManyRelays
  let (relay, cursor) ← decodeVarBytes cursor nostrRelayUrlMaxLen relayUrlLabel
  require (relay ≠ []) "Nostr relay URL must not be empty"
  let relay ← fromUtf8 relay relayUrlLabel
  pure (relays ++ [relay], cursor)

def decodeNostrRoutingV1 (bytes : List UInt8) : Except String NostrRoutingV1 :=
  if h : bytes.length < 32 then throw "Nostr routing component is missing nostr_group_id"
  else do
    let (vector, cursor) ←
      decodeVarBytes (bytes.drop 32) nostrRelayVectorMaxLen "Nostr relay vector"
    require (cursor = []) "Nostr routing component has trailing bytes"
    let relays ← decodeItems decodeRelay vector.length [] vector
    validateNostrRouting parser relays
    pure ⟨bytes.take 32, relays, List.length_take_of_le (Nat.le_of_not_lt h)⟩

end

variable {parser : UrlParser}

/-- What the loop of the decoder asks of a relay. -/
def RelayFits (relay : String) : Prop :=
  relay ≠ "" ∧ (utf8Bytes relay).length ≤ nostrRelayUrlMaxLen

instance : DecidablePred RelayFits := fun relay =>
  inferInstanceAs (Decidable (relay ≠ "" ∧ (utf8Bytes relay).length ≤ nostrRelayUrlMaxLen))

theorem validateNostrRelayUrl_fits {relay : String}
    (h : validateNostrRelayUrl parser relay = .ok ()) : RelayFits relay := by
  simp only [validateNostrRelayUrl, bind_eq_ok, require_eq_ok] at h
  obtain ⟨_, hne, _, hlength, _⟩ := h
  rw [← length_utf8Bytes] at hlength
  exact ⟨hne, hlength⟩

theorem decodeRelay_eq_ok {seen seen' : List String} {cursor rest : List UInt8} :
    decodeRelay seen cursor = .ok (seen', rest) ↔
      ∃ relay, cursor = encodeRelay relay ++ rest ∧
        (seen.length ≠ nostrRoutingMaxRelays ∧ RelayFits relay) ∧ seen ++ [relay] = seen' := by
  simp only [decodeRelay, bind_eq_ok, require_eq_ok, pure_eq_ok, Prod.exists, Prod.mk.injEq,
    fromUtf8_eq_ok, exists_const]
  constructor
  · rintro ⟨hbound, _, _, hread, hne, relay, rfl, rfl, rfl⟩
    obtain ⟨hcursor, hlength⟩ := (decodeVarBytes_eq_ok (by decide)).mp hread
    rw [Ne, utf8Bytes_eq_nil_iff] at hne
    exact ⟨relay, hcursor, ⟨hbound, hne, hlength⟩, rfl⟩
  · rintro ⟨relay, rfl, ⟨hbound, hne, hlength⟩, rfl⟩
    rw [Ne, ← utf8Bytes_eq_nil_iff] at hne
    exact ⟨hbound, _, rest, (decodeVarBytes_eq_ok (by decide)).mpr ⟨rfl, hlength⟩, hne, relay, rfl,
      rfl, rfl⟩

theorem decodeItems_relays {bytes : List UInt8} {relays : List String} :
    decodeItems decodeRelay bytes.length [] bytes = .ok relays ↔
      bytes = relays.flatMap encodeRelay ∧ (∀ relay ∈ relays, RelayFits relay) ∧
        relays.length ≤ nostrRoutingMaxRelays :=
  decodeItems_bounded tooManyRelays (fun _ _ _ _ => decodeRelay_eq_ok)
    (fun relay => encodeVarBytes_ne_nil (utf8Bytes relay)) bytes relays

/-- Valid relays fit into the bounds of the decoder. -/
theorem validateNostrRouting_fits {relays : List String}
    (h : validateNostrRouting parser relays = .ok ()) :
    (∀ relay ∈ relays, RelayFits relay) ∧ relays.length ≤ nostrRoutingMaxRelays ∧
      (relays.flatMap encodeRelay).length ≤ nostrRelayVectorMaxLen := by
  simp only [validateNostrRouting, validateNostrRelayCount, bind_eq_ok, require_eq_ok,
    exists_const] at h
  obtain ⟨⟨_, hcount⟩, _, hall⟩ := h
  have hfits : ∀ relay ∈ relays, RelayFits relay := fun relay hmem =>
    validateNostrRelayUrl_fits (forM_eq_ok.mp hall relay hmem)
  refine ⟨hfits, hcount, length_flatMap_le (fun relay hmem => ?_) hcount⟩
  exact length_encodeVarBytes_le (by decide) (hfits relay hmem).2

theorem routing_roundTrips (parser : UrlParser) :
    RoundTrips (encodeNostrRoutingV1 parser) (decodeNostrRoutingV1 parser) := by
  have hencode : ∀ routing bytes, encodeNostrRoutingV1 parser routing = .ok bytes ↔
      validateNostrRouting parser routing.relays = .ok () ∧ bytes = routing.bytes := by
    intro routing bytes
    simp only [encodeNostrRoutingV1, bind_eq_ok, pure_eq_ok]
    constructor
    · rintro ⟨_, hvalid, hbytes⟩
      exact ⟨hvalid, hbytes.symm⟩
    · rintro ⟨hvalid, hbytes⟩
      exact ⟨(), hvalid, hbytes.symm⟩
  refine RoundTrips.of_canonical (fun routing bytes h => ⟨routing, (hencode _ _).mp h⟩)
    (fun routing h => (hencode _ _).mpr ⟨h, rfl⟩) ?_
  intro bytes routing
  unfold decodeNostrRoutingV1
  split
  · rename_i hshort
    refine ⟨fun h => absurd h (by simp), ?_⟩
    rintro ⟨_, rfl⟩
    rw [NostrRoutingV1.bytes, length_append, routing.length_id] at hshort
    omega
  · rename_i hlong
    simp only [bind_eq_ok, require_eq_ok, pure_eq_ok, Prod.exists, decodeItems_relays]
    constructor
    · rintro ⟨vector, _, hread, _, rfl, relays, ⟨rfl, _, _⟩, _, hvalid, rfl⟩
      refine ⟨hvalid, ?_⟩
      obtain ⟨hvector, _⟩ := (decodeVarBytes_eq_ok (by decide)).mp hread
      rw [append_nil] at hvector
      rw [NostrRoutingV1.bytes, ← hvector, take_append_drop]
    · rintro ⟨hvalid, rfl⟩
      obtain ⟨hfits, hcount, hvector⟩ := validateNostrRouting_fits hvalid
      refine ⟨_, [], (decodeVarBytes_eq_ok (by decide)).mpr ⟨?_, hvector⟩, (), rfl, routing.relays,
        ⟨rfl, hfits, hcount⟩, (), hvalid, ?_⟩
      · rw [NostrRoutingV1.bytes, drop_left' routing.length_id, append_nil]
      · cases routing with
        | mk id relays hlength =>
          simp only [NostrRoutingV1.bytes, take_left' hlength]

/-! ### Group avatar -/

def groupAvatarUrlMaxLen : ℕ := 2048

def groupAvatarHintMaxLen : ℕ := 256

structure GroupAvatarUrlV1 where
  url : String
  dim : List UInt8
  thumbhash : List UInt8

def avatarUrlLabel : String := "group avatar URL"

def groupAvatarUrlRule (parser : UrlParser) : UrlRule where
  label := avatarUrlLabel
  trims := false
  maxLen := groupAvatarUrlMaxLen
  check url := do
    require (scheme url = "https") "group avatar URL scheme must be https"
    noCredentials parser avatarUrlLabel url
    noFragment parser avatarUrlLabel url
    require (parser.host url).isSome "group avatar URL must include a host"
  check_scheme := by
    intro url h
    simp only [bind_eq_ok, require_eq_ok] at h
    obtain ⟨_, hscheme, _⟩ := h
    rw [hscheme]
    decide

def validateAndNormalizeGroupAvatarUrl (parser : UrlParser) (raw : String) :
    Except String String :=
  normalizeUrl parser (groupAvatarUrlRule parser) raw

def noHintsIfAbsent (avatar : GroupAvatarUrlV1) : Except String Unit :=
  require (avatar.url = "" → avatar.dim = [] ∧ avatar.thumbhash = [])
    "group avatar absent state must not include hints"

/-- The URL of a state that may be absent. -/
def presentAvatarUrl (parser : UrlParser) (url : String) : Except String String :=
  if url = "" then pure "" else validateAndNormalizeGroupAvatarUrl parser url

def GroupAvatarUrlV1.bytes (avatar : GroupAvatarUrlV1) : List UInt8 :=
  encodeVarBytes (utf8Bytes avatar.url) ++
    (encodeVarBytes avatar.dim ++ encodeVarBytes avatar.thumbhash)

def encodeGroupAvatarUrlV1 (parser : UrlParser) (avatar : GroupAvatarUrlV1) :
    Except String (List UInt8) := do
  noHintsIfAbsent avatar
  require (avatar.dim.length ≤ groupAvatarHintMaxLen)
    ("group avatar dim exceeds " ++ toString groupAvatarHintMaxLen ++ " bytes")
  require (avatar.thumbhash.length ≤ groupAvatarHintMaxLen)
    ("group avatar thumbhash exceeds " ++ toString groupAvatarHintMaxLen ++ " bytes")
  let url ← presentAvatarUrl parser avatar.url
  pure (GroupAvatarUrlV1.bytes ⟨url, avatar.dim, avatar.thumbhash⟩)

def checkPresentAvatarUrl (parser : UrlParser) (url : String) : Except String Unit :=
  if url = "" then pure ()
  else do
    let normalized ← validateAndNormalizeGroupAvatarUrl parser url
    require (normalized = url) "group avatar URL is not normalized"

def decodeGroupAvatarUrlV1 (parser : UrlParser) (bytes : List UInt8) :
    Except String GroupAvatarUrlV1 := do
  let (url, cursor) ← decodeVarBytes bytes groupAvatarUrlMaxLen avatarUrlLabel
  let (dim, cursor) ← decodeVarBytes cursor groupAvatarHintMaxLen "group avatar dim"
  let (thumbhash, cursor) ← decodeVarBytes cursor groupAvatarHintMaxLen "group avatar thumbhash"
  require (cursor = []) "group avatar component has trailing bytes"
  let url ← fromUtf8 url avatarUrlLabel
  noHintsIfAbsent ⟨url, dim, thumbhash⟩
  checkPresentAvatarUrl parser url
  pure ⟨url, dim, thumbhash⟩

structure CanonicalAvatar (parser : UrlParser) (avatar : GroupAvatarUrlV1) : Prop where
  hints : noHintsIfAbsent avatar = .ok ()
  dim : avatar.dim.length ≤ groupAvatarHintMaxLen
  thumbhash : avatar.thumbhash.length ≤ groupAvatarHintMaxLen
  url : presentAvatarUrl parser avatar.url = .ok avatar.url

/-- The normal form of an avatar URL is its own normal form, and is absent with it. -/
theorem presentAvatarUrl_self {raw url : String} (h : presentAvatarUrl parser raw = .ok url) :
    presentAvatarUrl parser url = .ok url ∧ (url = "" → raw = "") ∧
      (utf8Bytes url).length ≤ groupAvatarUrlMaxLen := by
  unfold presentAvatarUrl at h
  split at h
  · rename_i hraw
    obtain rfl := pure_eq_ok.mp h
    exact ⟨rfl, fun _ => hraw, by decide⟩
  · obtain ⟨hself, hne, hlength⟩ := normalizeUrl_self h
    rw [length_utf8Bytes]
    exact ⟨(if_neg hne).trans hself, fun hempty => absurd hempty hne, hlength⟩

theorem checkPresentAvatarUrl_ok {url : String} {u : Unit} :
    checkPresentAvatarUrl parser url = .ok u ↔ presentAvatarUrl parser url = .ok url := by
  unfold checkPresentAvatarUrl presentAvatarUrl
  split
  · rename_i hempty
    subst hempty
    exact ⟨fun _ => rfl, fun _ => rfl⟩
  · simp only [bind_eq_ok, require_eq_ok]
    exact ⟨fun ⟨_, hurl, heq⟩ => heq ▸ hurl, fun hurl => ⟨url, hurl, rfl⟩⟩

theorem avatar_roundTrips (parser : UrlParser) :
    RoundTrips (encodeGroupAvatarUrlV1 parser) (decodeGroupAvatarUrlV1 parser) := by
  refine @RoundTrips.of_canonical _ _ _ _ (CanonicalAvatar parser) GroupAvatarUrlV1.bytes ?_ ?_ ?_
  · intro avatar bytes h
    simp only [encodeGroupAvatarUrlV1, bind_eq_ok, require_eq_ok, pure_eq_ok] at h
    obtain ⟨_, hhints, _, hdim, _, hthumbhash, url, hurl, rfl⟩ := h
    obtain ⟨hself, habsent, _⟩ := presentAvatarUrl_self hurl
    refine ⟨⟨url, avatar.dim, avatar.thumbhash⟩, ⟨?_, hdim, hthumbhash, hself⟩, rfl⟩
    exact require_eq_ok.mpr fun hempty => require_eq_ok.mp hhints (habsent hempty)
  · intro avatar h
    simp only [encodeGroupAvatarUrlV1, bind_eq_ok, require_eq_ok, pure_eq_ok]
    exact ⟨(), h.hints, (), h.dim, (), h.thumbhash, avatar.url, h.url, rfl⟩
  · intro bytes avatar
    simp only [decodeGroupAvatarUrlV1, bind_eq_ok, require_eq_ok, pure_eq_ok, Prod.exists,
      fromUtf8_eq_ok, checkPresentAvatarUrl_ok]
    constructor
    · rintro ⟨_, _, hread, dim, _, hread', thumbhash, _, hread'', _, rfl, url, rfl, _, hhints, _,
        hurl, rfl⟩
      obtain ⟨hthumbhash, hlength⟩ := (decodeVarBytes_eq_ok (by decide)).mp hread''
      obtain ⟨hdim, hlength'⟩ := (decodeVarBytes_eq_ok (by decide)).mp hread'
      obtain ⟨hbytes, _⟩ := (decodeVarBytes_eq_ok (by decide)).mp hread
      rw [append_nil] at hthumbhash
      refine ⟨⟨hhints, hlength', hlength, hurl⟩, ?_⟩
      rw [GroupAvatarUrlV1.bytes, ← hthumbhash, ← hdim, ← hbytes]
    · rintro ⟨h, rfl⟩
      have hlength := (presentAvatarUrl_self h.url).2.2
      exact ⟨_, _, (decodeVarBytes_eq_ok (by decide)).mpr ⟨rfl, hlength⟩,
        avatar.dim, _, (decodeVarBytes_eq_ok (by decide)).mpr ⟨rfl, h.dim⟩,
        avatar.thumbhash, [],
        (decodeVarBytes_eq_ok (by decide)).mpr ⟨(append_nil _).symm, h.thumbhash⟩,
        (), rfl, avatar.url, rfl, (), h.hints, (), h.url, rfl⟩

/-! ### Media types -/

variable (byte : UInt8)

def isMarmotAsciiWhitespace : Bool :=
  byte == 0x09 || byte == 0x0a || byte == 0x0c || byte == 0x0d || byte == 0x20

/-- Alphanumeric, or one of ``!#$%&'*+-.^_`|~``. -/
def isHttpTokenByte : Bool :=
  (0x61 ≤ byte && byte ≤ 0x7a) || (0x41 ≤ byte && byte ≤ 0x5a) ||
    (0x30 ≤ byte && byte ≤ 0x39) ||
    [0x21, 0x23, 0x24, 0x25, 0x26, 0x27, 0x2a, 0x2b, 0x2d, 0x2e, 0x5e, 0x5f, 0x60, 0x7c,
      0x7e].contains byte

def lowercaseByte : UInt8 :=
  if 0x41 ≤ byte && byte ≤ 0x5a then byte + 0x20 else byte

def semicolon : UInt8 := 0x3b

def slash : UInt8 := 0x2f

def mediaTypePartMaxLen : ℕ := 64

def mediaTypeMaxLen : ℕ := 128

/-- A type and a subtype, on both sides of the only slash. -/
def checkMediaType (mediaType : List UInt8) : Except String Unit := do
  require (mediaType.count slash = 1) "media type must contain exactly one slash"
  let typeBytes := mediaType.takeWhile (· ≠ slash)
  let subtypeBytes := (mediaType.dropWhile (· ≠ slash)).drop 1
  require (typeBytes ≠ [] ∧ subtypeBytes ≠ []) "media type and subtype must be non-empty"
  require (typeBytes.length ≤ mediaTypePartMaxLen ∧ subtypeBytes.length ≤ mediaTypePartMaxLen ∧
    mediaType.length ≤ mediaTypeMaxLen) "media type exceeds Marmot length bounds"
  require ((typeBytes ++ subtypeBytes).all isHttpTokenByte)
    "media type contains an invalid token byte"

def asciiText (bytes : List UInt8) : Except String String :=
  match ofUtf8? bytes with
  | some text => .ok text
  | none => .error "media type must contain only ASCII token bytes"

def canonicalizeMarmotMediaType (value : String) : Except String String := do
  let mediaType := trimEnds isMarmotAsciiWhitespace ((utf8Bytes value).takeWhile (· ≠ semicolon))
  checkMediaType mediaType
  let canonical ← asciiText (mediaType.map lowercaseByte)
  pure (if canonical = "image/jpg" then "image/jpeg" else canonical)

theorem asciiText_eq_ok {bytes : List UInt8} {text : String} :
    asciiText bytes = .ok text ↔ utf8Bytes text = bytes := by
  rw [← ofUtf8?_eq_some, asciiText]
  cases ofUtf8? bytes with
  | none => simp
  | some text' => simp

theorem lowercaseByte_spec :
    isHttpTokenByte (lowercaseByte byte) = isHttpTokenByte byte ∧
    (lowercaseByte byte = slash ↔ byte = slash) ∧
    lowercaseByte (lowercaseByte byte) = lowercaseByte byte := by
  have hall : ∀ n < 256, isHttpTokenByte (lowercaseByte (UInt8.ofNat n)) =
      isHttpTokenByte (UInt8.ofNat n) ∧
      (lowercaseByte (UInt8.ofNat n) = slash ↔ UInt8.ofNat n = slash) ∧
      lowercaseByte (lowercaseByte (UInt8.ofNat n)) = lowercaseByte (UInt8.ofNat n) := by
    decide +kernel
  have hbyte := hall byte.toNat byte.toNat_lt
  rwa [UInt8.ofNat_toNat] at hbyte

theorem token_spec {byte : UInt8} (h : isHttpTokenByte byte ∨ byte = slash) :
    byte ≠ semicolon ∧ isMarmotAsciiWhitespace byte = false := by
  have hall : ∀ n < 256, isHttpTokenByte (UInt8.ofNat n) ∨ UInt8.ofNat n = slash →
      UInt8.ofNat n ≠ semicolon ∧ isMarmotAsciiWhitespace (UInt8.ofNat n) = false := by
    decide +kernel
  have hbyte := hall byte.toNat byte.toNat_lt
  rw [UInt8.ofNat_toNat] at hbyte
  exact hbyte h

/-- The bytes of a media type are those of its parts and the slash. -/
theorem checkMediaType_bytes {mediaType : List UInt8} (h : checkMediaType mediaType = .ok ()) :
    ∀ byte ∈ mediaType, isHttpTokenByte byte ∨ byte = slash := by
  simp only [checkMediaType, bind_eq_ok, require_eq_ok, exists_const] at h
  obtain ⟨_, _, _, htoken⟩ := h
  have htoken : ∀ byte ∈ mediaType.takeWhile (· ≠ slash) ++
      (mediaType.dropWhile (· ≠ slash)).drop 1, isHttpTokenByte byte := all_eq_true.mp htoken
  intro byte hmem
  by_cases hslash : byte = slash
  · exact .inr hslash
  refine .inl (htoken byte ?_)
  have hsplit : mediaType.takeWhile (· ≠ slash) ++ mediaType.dropWhile (· ≠ slash) = mediaType :=
    takeWhile_append_dropWhile
  rw [← hsplit] at hmem
  refine mem_append.mpr ((mem_append.mp hmem).imp_right fun hrest => ?_)
  -- The first byte after the type is the slash.
  have hfirst := head?_dropWhile_not (· ≠ slash) mediaType
  cases hcase : mediaType.dropWhile (· ≠ slash) with
  | nil =>
    rw [hcase] at hrest
    exact absurd hrest not_mem_nil
  | cons first rest =>
    rw [hcase, head?_cons] at hfirst
    rw [hcase] at hrest
    have hfirst : first = slash := by simpa using hfirst
    exact (mem_cons.mp hrest).resolve_left fun heq => hslash (heq.trans hfirst)

/-- The check does not see capital letters. -/
theorem checkMediaType_lowercase {mediaType : List UInt8} (h : checkMediaType mediaType = .ok ()) :
    checkMediaType (mediaType.map lowercaseByte) = .ok () := by
  have hne : ((fun byte => decide (byte ≠ slash)) ∘ lowercaseByte) = (· ≠ slash) := by
    funext byte
    simp only [Function.comp_apply, Ne, (lowercaseByte_spec byte).2.1]
  have hcount : (mediaType.map lowercaseByte).count slash = mediaType.count slash := by
    rw [count, countP_map]
    congr 1
    funext byte
    rw [Function.comp_apply, Bool.eq_iff_iff, beq_iff_eq, beq_iff_eq, (lowercaseByte_spec byte).2.1]
  have htoken : isHttpTokenByte ∘ lowercaseByte = isHttpTokenByte :=
    funext fun byte => (lowercaseByte_spec byte).1
  simp only [checkMediaType, hcount, takeWhile_map, dropWhile_map, hne, ← map_drop,
    ← map_append, all_map, htoken, Ne, map_eq_nil_iff, length_map]
  exact h

/-- Canonical media types are left alone. -/
theorem canonicalizeMarmotMediaType_self {value canonical : String}
    (h : canonicalizeMarmotMediaType value = .ok canonical) :
    canonicalizeMarmotMediaType canonical = .ok canonical ∧ canonical ≠ "" ∧
      (utf8Bytes canonical).length ≤ mediaTypeMaxLen := by
  simp only [canonicalizeMarmotMediaType, bind_eq_ok, pure_eq_ok, asciiText_eq_ok] at h
  obtain ⟨_, hcheck, text, htext, hcanonical⟩ := h
  generalize trimEnds isMarmotAsciiWhitespace _ = mediaType at hcheck htext
  split at hcanonical
  · subst hcanonical
    decide +kernel
  rename_i hjpg
  subst hcanonical
  have hlower := checkMediaType_lowercase hcheck
  rw [← htext] at hlower
  have hbytes := checkMediaType_bytes hlower
  have hcut : trimEnds isMarmotAsciiWhitespace ((utf8Bytes text).takeWhile (· ≠ semicolon)) =
      utf8Bytes text := by
    rw [takeWhile_eq_self_iff.mpr fun byte hmem =>
      decide_eq_true (token_spec (hbytes byte hmem)).1]
    exact trimEnds_of_not fun byte hmem => (token_spec (hbytes byte hmem)).2
  have hmap : (utf8Bytes text).map lowercaseByte = utf8Bytes text := by
    rw [htext, map_map]
    exact map_congr_left fun byte _ => (lowercaseByte_spec byte).2.2
  refine ⟨?_, ?_, ?_⟩
  · simp only [canonicalizeMarmotMediaType, hcut, hmap, bind_eq_ok, pure_eq_ok, asciiText_eq_ok]
    exact ⟨(), hlower, text, rfl, if_neg hjpg⟩
  · rintro rfl
    exact absurd hlower (by decide)
  · simp only [checkMediaType, bind_eq_ok, require_eq_ok, exists_const] at hlower
    exact hlower.2.2.1.2.2

example : (canonicalizeMarmotMediaType " Image/JPG; q=1").toOption = some "image/jpeg" := by
  decide +kernel

/-! ### Group image -/

def imageHashLen : ℕ := 32

def imageKeyLen : ℕ := 32

def imageNonceLen : ℕ := 12

def imageUploadKeyLen : ℕ := 32

structure GroupBlossomImageV1 where
  imageHash : List UInt8
  imageKey : List UInt8
  imageNonce : List UInt8
  imageUploadKey : List UInt8
  mediaType : String

section

variable (image : GroupBlossomImageV1)

def GroupBlossomImageV1.isPresent : Bool :=
  image.imageHash ≠ [] || image.imageKey ≠ [] || image.imageNonce ≠ [] ||
    image.imageUploadKey ≠ [] || image.mediaType ≠ ""

def validateGroupBlossomImageFields : Except String String := do
  require (image.imageHash.length = imageHashLen ∧ image.imageKey.length = imageKeyLen ∧
    image.imageNonce.length = imageNonceLen ∧ image.imageUploadKey.length = imageUploadKeyLen ∧
    image.mediaType ≠ "") "group image component has invalid partial state"
  canonicalizeMarmotMediaType image.mediaType

def GroupBlossomImageV1.bytes : List UInt8 :=
  encodeComponentVectors [image.imageHash, image.imageKey, image.imageNonce, image.imageUploadKey,
    utf8Bytes image.mediaType]

def encodeGroupBlossomImageV1 : Except String (List UInt8) :=
  if image.isPresent then do
    let mediaType ← validateGroupBlossomImageFields image
    pure { image with mediaType }.bytes
  else pure (encodeComponentVectors [[], [], [], [], []])

def checkPresentImage : Except String Unit :=
  if image.isPresent then do
    let canonical ← validateGroupBlossomImageFields image
    require (canonical = image.mediaType) "group image media type is not canonical"
  else pure ()

end

def decodeGroupBlossomImageV1 (bytes : List UInt8) : Except String GroupBlossomImageV1 := do
  let (imageHash, cursor) ← decodeVarBytes bytes imageHashLen "group image hash"
  let (imageKey, cursor) ← decodeVarBytes cursor imageKeyLen "group image key"
  let (imageNonce, cursor) ← decodeVarBytes cursor imageNonceLen "group image nonce"
  let (imageUploadKey, cursor) ← decodeVarBytes cursor imageUploadKeyLen "group image upload key"
  let (mediaType, cursor) ← decodeVarBytes cursor mediaTypeMaxLen "group image media type"
  require (cursor = []) "group image component has trailing bytes"
  let mediaType ← fromUtf8 mediaType "group image media type"
  checkPresentImage ⟨imageHash, imageKey, imageNonce, imageUploadKey, mediaType⟩
  pure ⟨imageHash, imageKey, imageNonce, imageUploadKey, mediaType⟩

def absentImage : GroupBlossomImageV1 := ⟨[], [], [], [], ""⟩

variable {image : GroupBlossomImageV1}

theorem isPresent_eq_false : image.isPresent = false ↔ image = absentImage := by
  cases image
  simp [GroupBlossomImageV1.isPresent, absentImage, and_assoc]

/-- A state that the encoder leaves alone. -/
def CanonicalImage (image : GroupBlossomImageV1) : Prop :=
  image = absentImage ∨ validateGroupBlossomImageFields image = .ok image.mediaType

theorem validateGroupBlossomImageFields_present {mediaType : String}
    (h : validateGroupBlossomImageFields image = .ok mediaType) : image.isPresent = true := by
  rw [← Bool.not_eq_false, isPresent_eq_false]
  rintro rfl
  cases h

theorem checkPresentImage_ok {u : Unit} :
    checkPresentImage image = .ok u ↔ CanonicalImage image := by
  unfold checkPresentImage CanonicalImage
  split
  · rename_i hpresent
    rw [or_iff_right fun habsent => by rw [habsent] at hpresent; cases hpresent]
    simp only [bind_eq_ok, require_eq_ok]
    exact ⟨fun ⟨_, hvalid, heq⟩ => heq ▸ hvalid, fun hvalid => ⟨_, hvalid, rfl⟩⟩
  · rename_i habsent
    exact ⟨fun _ => .inl (isPresent_eq_false.mp (Bool.not_eq_true _ ▸ habsent)), fun _ => rfl⟩

/-- The bounds of the decoder leave room for every canonical state. -/
theorem CanonicalImage.lengths (h : CanonicalImage image) :
    image.imageHash.length ≤ imageHashLen ∧ image.imageKey.length ≤ imageKeyLen ∧
    image.imageNonce.length ≤ imageNonceLen ∧ image.imageUploadKey.length ≤ imageUploadKeyLen ∧
    (utf8Bytes image.mediaType).length ≤ mediaTypeMaxLen := by
  obtain rfl | h := h
  · decide
  · simp only [validateGroupBlossomImageFields, bind_eq_ok, require_eq_ok, exists_const] at h
    obtain ⟨⟨hhash, hkey, hnonce, hupload, _⟩, hcanonical⟩ := h
    exact ⟨hhash.le, hkey.le, hnonce.le, hupload.le,
      (canonicalizeMarmotMediaType_self hcanonical).2.2⟩

theorem encodeGroupBlossomImageV1_canonical {bytes : List UInt8}
    (h : encodeGroupBlossomImageV1 image = .ok bytes) :
    ∃ image', CanonicalImage image' ∧ bytes = image'.bytes := by
  unfold encodeGroupBlossomImageV1 at h
  split at h
  · simp only [bind_eq_ok, pure_eq_ok] at h
    obtain ⟨mediaType, hvalid, rfl⟩ := h
    refine ⟨{ image with mediaType }, .inr ?_, rfl⟩
    simp only [validateGroupBlossomImageFields, bind_eq_ok, require_eq_ok, exists_const] at hvalid ⊢
    obtain ⟨⟨hhash, hkey, hnonce, hupload, _⟩, hcanonical⟩ := hvalid
    obtain ⟨hself, hne, _⟩ := canonicalizeMarmotMediaType_self hcanonical
    exact ⟨⟨hhash, hkey, hnonce, hupload, hne⟩, hself⟩
  · obtain rfl := pure_eq_ok.mp h
    exact ⟨absentImage, .inl rfl, rfl⟩

theorem CanonicalImage.encode (h : CanonicalImage image) :
    encodeGroupBlossomImageV1 image = .ok image.bytes := by
  obtain rfl | h := h
  · rfl
  · rw [encodeGroupBlossomImageV1, if_pos (validateGroupBlossomImageFields_present h), h]
    rfl

theorem image_roundTrips : RoundTrips encodeGroupBlossomImageV1 decodeGroupBlossomImageV1 := by
  refine RoundTrips.of_canonical (fun image bytes => encodeGroupBlossomImageV1_canonical)
    (fun image => CanonicalImage.encode) ?_
  intro bytes image
  simp only [decodeGroupBlossomImageV1, bind_eq_ok, require_eq_ok, pure_eq_ok, Prod.exists,
    fromUtf8_eq_ok, checkPresentImage_ok]
  constructor
  · rintro ⟨hash, _, h1, key, _, h2, nonce, _, h3, upload, _, h4, _, _, h5, _, rfl, mediaType, rfl,
      _, hcanonical, rfl⟩
    refine ⟨hcanonical, ?_⟩
    have hlast := ((decodeVarBytes_eq_ok (by decide)).mp h5).1
    rw [GroupBlossomImageV1.bytes, encodeComponentVectors]
    simp only [flatMap_cons, flatMap_nil, ← hlast]
    rw [← ((decodeVarBytes_eq_ok (by decide)).mp h4).1,
      ← ((decodeVarBytes_eq_ok (by decide)).mp h3).1,
      ← ((decodeVarBytes_eq_ok (by decide)).mp h2).1]
    exact ((decodeVarBytes_eq_ok (by decide)).mp h1).1
  · rintro ⟨h, rfl⟩
    obtain ⟨hhash, hkey, hnonce, hupload, hmedia⟩ := h.lengths
    exact ⟨_, _, (decodeVarBytes_eq_ok (by decide)).mpr ⟨rfl, hhash⟩,
      _, _, (decodeVarBytes_eq_ok (by decide)).mpr ⟨rfl, hkey⟩,
      _, _, (decodeVarBytes_eq_ok (by decide)).mpr ⟨rfl, hnonce⟩,
      _, _, (decodeVarBytes_eq_ok (by decide)).mpr ⟨rfl, hupload⟩,
      _, _, (decodeVarBytes_eq_ok (by decide)).mpr ⟨rfl, hmedia⟩,
      (), rfl, image.mediaType, rfl, (), h, rfl⟩

/-! ### The five components -/

/-- Each of the component states has one encoding: what is encoded can be decoded, to a state
with the same encoding, and what is decoded is encoded to the bytes it came from. -/
theorem components_roundTrip (parser : UrlParser) :
    RoundTrips (encodeNostrRoutingV1 parser) (decodeNostrRoutingV1 parser) ∧
    RoundTrips (encodeEncryptedMediaPolicyV1 parser) (decodeEncryptedMediaPolicyV1 parser) ∧
    RoundTrips (encodeEncryptedMediaPolicyV2 parser) (decodeEncryptedMediaPolicyV2 parser) ∧
    RoundTrips (encodeGroupAvatarUrlV1 parser) (decodeGroupAvatarUrlV1 parser) ∧
    RoundTrips encodeGroupBlossomImageV1 decodeGroupBlossomImageV1 :=
  ⟨routing_roundTrips parser, policy_roundTrips (mediaV1 parser true),
    policy_roundTrips (mediaV2 parser), avatar_roundTrips parser, image_roundTrips⟩

namespace ComponentSample

/-- Every text without white space around it is taken for a URL of one host. -/
def trimmed : UrlParser where
  parse raw := if trim raw = raw then .ok raw else .error "invalid URL"
  parse_self {raw url} h := by
    split at h
    · obtain rfl := Except.ok.inj h
      rw [if_pos ‹_›]
    · cases h
  trim_parse {raw url} h := by
    split at h
    · obtain rfl := Except.ok.inj h
      assumption
    · cases h
  username _ := ""
  password _ := none
  host _ := some (.domain "a.example")
  query _ := none
  fragment _ := none

/-- A policy that is normalized on its way: two spellings of one kind, and white space. -/
def policy : EncryptedMediaPolicy :=
  ⟨" encrypted-media-v1", ["Blossom-v1", "blossom-v1"], [⟨"BLOSSOM-V1 ", " https://a.example/"⟩]⟩

theorem components_roundTrip_policy :
    ∃ bytes policy', encodeEncryptedMediaPolicyV1 trimmed policy = .ok bytes ∧
      decodeEncryptedMediaPolicyV1 trimmed bytes = .ok policy' ∧
      encodeEncryptedMediaPolicyV1 trimmed policy' = .ok bytes := by
  have hok : (encodeEncryptedMediaPolicyV1 trimmed policy).isOk = true := by decide +kernel
  cases hencode : encodeEncryptedMediaPolicyV1 trimmed policy with
  | error e =>
    rw [hencode] at hok
    cases hok
  | ok bytes =>
    obtain ⟨policy', hdecode, hagain⟩ := (components_roundTrip trimmed).2.1.1 policy bytes hencode
    exact ⟨bytes, policy', rfl, hdecode, hagain⟩

end ComponentSample

end Mdk
