/-
URLs in group component state.

Parsing a URL and writing it out again is a parameter: a partial function on strings that
leaves its own results alone, and whose results have no white space around them.  The parts
of a URL are read off the result; its scheme is what stands before the first colon.

The three components with a URL that is stored in normal form check it in the same order and
differ in the checks themselves, in the name in their messages, and in whether white space is
trimmed first: `normalizeUrl` is that order.

* **`normalizeUrl_self`** — the normal form of a URL is its own normal form.
-/
import Mdk.Utf8
import Mdk.Checks

namespace Mdk

open Checks

/-! ### White space -/

/-- The `White_Space` property. -/
def isWhiteSpace (c : Char) : Bool :=
  (0x09 ≤ c.toNat && c.toNat ≤ 0x0d) || c.toNat == 0x20 || c.toNat == 0x85 ||
    c.toNat == 0xa0 || c.toNat == 0x1680 || (0x2000 ≤ c.toNat && c.toNat ≤ 0x200a) ||
    c.toNat == 0x2028 || c.toNat == 0x2029 || c.toNat == 0x202f || c.toNat == 0x205f ||
    c.toNat == 0x3000

/-- A list without the items at its ends that satisfy `p`. -/
def trimEnds {α : Type} (p : α → Bool) (l : List α) : List α :=
  ((l.dropWhile p).reverse.dropWhile p).reverse

def trim (s : String) : String := String.ofList (trimEnds isWhiteSpace s.toList)

theorem trimEnds_of_not {α : Type} {p : α → Bool} {l : List α} (h : ∀ a ∈ l, p a = false) :
    trimEnds p l = l := by
  have hdrop : ∀ {l : List α}, (∀ a ∈ l, p a = false) → l.dropWhile p = l := by
    intro l hl
    cases l with
    | nil => rfl
    | cons a l => rw [List.dropWhile_cons_of_neg (by rw [hl a List.mem_cons_self]; decide)]
  rw [trimEnds, hdrop h, hdrop fun a ha => h a (List.mem_reverse.mp ha), List.reverse_reverse]

/-- Trimming leaves a text without white space alone. -/
theorem trim_of_not_white {s : String} (h : ∀ c ∈ s.toList, isWhiteSpace c = false) :
    trim s = s := by
  rw [trim, trimEnds_of_not h, String.ofList_toList]

/-! ### Hosts -/

inductive Host where
  | domain (name : String)
  | ipv4 (a b c d : UInt8)
  | ipv6 (segments : Fin 8 → UInt16)

def toAsciiLowercase (s : String) : String := String.ofList (s.toList.map Char.toLower)

def isLoopbackDomain (domain : String) : Bool :=
  let lowered := (toAsciiLowercase domain).toList
  let unrooted := if lowered.getLast? = some '.' then lowered.dropLast else lowered
  unrooted == "localhost".toList || ".localhost".toList.isSuffixOf unrooted

variable (segments : Fin 8 → UInt16)

def isLoopbackIpv6 : Bool :=
  decide (segments = ![0, 0, 0, 0, 0, 0, 0, 1])

def isLoopbackHost : Host → Bool
  | .domain name => isLoopbackDomain name
  | .ipv4 a _ _ _ => a == 127
  | .ipv6 segments => isLoopbackIpv6 segments

def isPublicIpv4 (a b c : UInt8) : Bool :=
  !(a == 0 || a == 10 || (a == 100 && 64 ≤ b && b ≤ 127) || a == 127 || (a == 169 && b == 254) ||
    (a == 172 && 16 ≤ b && b ≤ 31) || (a == 192 && b == 0 && c == 0) ||
    (a == 192 && b == 0 && c == 2) || (a == 192 && b == 88 && c == 99) || (a == 192 && b == 168) ||
    (a == 198 && 18 ≤ b && b ≤ 19) || (a == 198 && b == 51 && c == 100) ||
    (a == 203 && b == 0 && c == 113) || 224 ≤ a)

/-- An IPv4 address in an IPv6 one is judged as such; of the rest only global unicast is
public, without the special ranges in it. -/
def isPublicIpv6 : Bool :=
  if segments 0 = 0 ∧ segments 1 = 0 ∧ segments 2 = 0 ∧ segments 3 = 0 ∧ segments 4 = 0 ∧
      segments 5 = 0xffff then
    isPublicIpv4 (segments 6 >>> 8).toUInt8 (segments 6).toUInt8 (segments 7 >>> 8).toUInt8
  else if isLoopbackIpv6 segments ∨ segments = ![0, 0, 0, 0, 0, 0, 0, 0] ∨
      segments 0 &&& 0xff00 = 0xff00 then false
  else if segments 0 &&& 0xfe00 = 0xfc00 ∨ segments 0 &&& 0xffc0 = 0xfe80 then false
  else if segments 0 = 0x2001 ∧ segments 1 ≤ 0x01ff then false
  else if segments 0 = 0x2002 then false
  else if segments 0 = 0x2001 ∧ segments 1 = 0x0db8 then false
  else if segments 0 = 0x3fff ∧ segments 1 &&& 0xf000 = 0 then false
  else segments 0 &&& 0xe000 = 0x2000

def nonRoutable : String := "group avatar URL must not point at a non-routable address"

def rejectNonRoutableIpv4 (a b c : UInt8) : Except String Unit :=
  require (isPublicIpv4 a b c) nonRoutable

def rejectNonRoutableIpv6 : Except String Unit :=
  require (isPublicIpv6 segments) nonRoutable

/-! ### URLs -/

/-- Parse-and-serialize, and the parts of a serialized URL. -/
structure UrlParser where
  parse : String → Except String String
  parse_self : ∀ {raw url}, parse raw = .ok url → parse url = .ok url
  trim_parse : ∀ {raw url}, parse raw = .ok url → trim url = url
  username : String → String
  password : String → Option String
  host : String → Option Host
  query : String → Option String
  fragment : String → Option String

/-- What stands before the first colon. -/
def scheme (url : String) : String := String.ofList (url.toList.takeWhile (· ≠ ':'))

theorem ne_empty_of_scheme {url : String} (h : scheme url ≠ "") : url ≠ "" := by
  rintro rfl
  exact h rfl

/-- The values in which the validators of stored URLs differ. -/
structure UrlRule where
  label : String
  trims : Bool
  maxLen : ℕ
  check : String → Except String Unit
  /-- What passes the check has a scheme. -/
  check_scheme : ∀ {url}, check url = .ok () → scheme url ≠ ""

def UrlRule.exceeds (rule : UrlRule) : String :=
  rule.label ++ " exceeds " ++ toString rule.maxLen ++ " bytes"

/-- Validate a URL and write it in normal form. -/
def normalizeUrl (parser : UrlParser) (rule : UrlRule) (raw : String) : Except String String := do
  let raw := if rule.trims then trim raw else raw
  require (raw ≠ "") (rule.label ++ " must not be empty")
  require (raw.utf8ByteSize ≤ rule.maxLen) rule.exceeds
  let url ← (parser.parse raw).mapError fun e => rule.label ++ " is invalid: " ++ e
  rule.check url
  require (url.utf8ByteSize ≤ rule.maxLen) rule.exceeds
  pure url

variable {parser : UrlParser} {rule : UrlRule} {raw url : String}

/-- The normal form of a URL is its own normal form, and within the bound. -/
theorem normalizeUrl_self (h : normalizeUrl parser rule raw = .ok url) :
    normalizeUrl parser rule url = .ok url ∧ url ≠ "" ∧ url.utf8ByteSize ≤ rule.maxLen := by
  simp only [normalizeUrl, bind_eq_ok, require_eq_ok, mapError_eq_ok, pure_eq_ok] at h
  obtain ⟨_, _, _, _, url', hparse, _, hcheck, _, hlength, rfl⟩ := h
  have hne : url' ≠ "" := ne_empty_of_scheme (rule.check_scheme hcheck)
  have hraw : (if rule.trims then trim url' else url') = url' := by
    split
    · exact parser.trim_parse hparse
    · rfl
  refine ⟨?_, hne, hlength⟩
  simp only [normalizeUrl, hraw, bind_eq_ok, require_eq_ok, mapError_eq_ok, pure_eq_ok]
  exact ⟨(), hne, (), hlength, url', parser.parse_self hparse, (), hcheck, (), hlength, rfl⟩

end Mdk
