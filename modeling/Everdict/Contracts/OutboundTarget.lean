import Everdict.Addresses
import Everdict.RegExp

/-!
# Where the platform is willing to dial

One test of a host tells the addresses inside the platform's own network.  The literal check asks
it of the host in a URL, the resolved check of each address that the name resolves to.
-/

namespace Everdict.Contracts

open Address

/-! ## The test of a host -/

/-- `.*` and a suffix, up to the end. -/
def endsUnder (suffix candidate : List Char) : Bool :=
  suffix.isSuffixOf candidate &&
    (candidate.take (candidate.length - suffix.length)).all fun c => !RegExp.isLineEnd c.toNat

/-- `/^(localhost|.*\.local|.*\.internal)$/i` of a text in lower case -/
def PRIVATE_HOST (candidate : List Char) : Bool :=
  candidate = "localhost".toList || endsUnder ".local".toList candidate ||
    endsUnder ".internal".toList candidate

/-- `1[6-9]|2\d|3[01]` -/
def sixteenToThirtyOne : List Char → Bool
  | ['1', d] => '6' ≤ d && d ≤ '9'
  | ['2', d] => d.isDigit
  | ['3', d] => d = '0' || d = '1'
  | _ => false

/-- `6[4-9]|[7-9]\d|1[01]\d|12[0-7]` -/
def sixtyFourToOneTwentySeven : List Char → Bool
  | ['6', d] => '4' ≤ d && d ≤ '9'
  | [d, d'] => '7' ≤ d && d ≤ '9' && d'.isDigit
  | ['1', '2', d] => '0' ≤ d && d ≤ '7'
  | ['1', d, d'] => (d = '0' || d = '1') && d'.isDigit
  | _ => false

/-- The alternatives, each a part or two in front of a dot. -/
def PRIVATE_IPV4 (candidate : List Char) : Bool :=
  match candidate.splitOn '.' with
  | first :: _ :: [] => first = "10".toList || first = "127".toList || first = "0".toList
  | first :: second :: _ :: _ =>
      first = "10".toList || first = "127".toList || first = "0".toList ||
        (first = "169".toList && second = "254".toList) ||
        (first = "192".toList && second = "168".toList) ||
        (first = "172".toList && sixteenToThirtyOne second) ||
        (first = "100".toList && sixtyFourToOneTwentySeven second)
  | _ => false

/-- `\d{1,3}\.\d{1,3}\.\d{1,3}\.\d{1,3}` -/
def isDotted (s : List Char) : Bool :=
  (s.splitOn '.').length = 4 &&
    (s.splitOn '.').all fun part => 1 ≤ part.length && part.length ≤ 3 && part.all Char.isDigit

/-- `[0-9a-f]{1,4}` -/
def isHexGroup (s : List Char) : Bool := 1 ≤ s.length && s.length ≤ 4 && s.all fun c => c ∈ HEX

/-- The dotted form of the IPv4 address that `::ffff:` carries, in either spelling. -/
def mappedIpv4 (bare : List Char) : Option (List Char) :=
  match bare.splitOn ':' with
  | [[], [], tag, dotted] => if tag = "ffff".toList && isDotted dotted then some dotted else none
  | [[], [], tag, highGroup, lowGroup] =>
      if tag = "ffff".toList && isHexGroup highGroup && isHexGroup lowGroup then
        let high := hexValue highGroup
        let low := hexValue lowGroup
        some (['.'].intercalate
          [decimal (high / 256), decimal (high % 256), decimal (low / 256), decimal (low % 256)])
      else none
  | _ => none

/-- `host.replace(/^\[|\]$/g, "")` -/
def unbracket (host : List Char) : List Char :=
  let host := if host.head? = some '[' then host.tail else host
  if host.getLast? = some ']' then host.dropLast else host

/-- A letter outside ASCII is no part of what the tests look for, in either case. -/
def isPrivateAddress (host : String) : Bool :=
  let bare := lower (unbracket host.toList)
  let candidate := (mappedIpv4 bare).getD bare
  PRIVATE_HOST candidate || PRIVATE_IPV4 candidate ||
    bare = "::1".toList || bare = "::".toList ||
    ['f', 'c'].isPrefixOf bare || ['f', 'd'].isPrefixOf bare || ['f', 'e', '8', '0'].isPrefixOf bare

/-! ## The two checks -/

structure OutboundPolicy where
  allowPrivateHosts : Bool := false
  allowHttp : Bool := false

structure Url where
  protocol : String
  hostname : String
  href : String
  deriving DecidableEq

structure BadRequestError where
  extra : List (String × String)
  message : String
  deriving DecidableEq

/-- `parse` is the URL parser of the platform. -/
def refuseUnsafeOutboundUrl (parse : String → Option Url) (raw lane : String)
    (policy : OutboundPolicy) : Except BadRequestError Url :=
  match parse raw with
  | none => .error ⟨[("lane", lane), ("url", raw)], s!"{lane} destination '{raw}' is not a URL"⟩
  | some url =>
      let schemes := if policy.allowHttp then ["https:", "http:"] else ["https:"]
      if url.protocol ∉ schemes then
        .error ⟨[("lane", lane), ("url", raw), ("protocol", url.protocol)],
          s!"{lane} destination '{raw}' is not " ++ " or ".intercalate schemes⟩
      else if policy.allowPrivateHosts then .ok url
      else if isPrivateAddress url.hostname then
        .error ⟨[("lane", lane), ("url", raw)],
          s!"{lane} destination '{raw}' points at a private address"⟩
      else .ok url

/-- `addresses` is what the lookup of the host answered. -/
def assertPublicOutboundTarget (url : Url) (lane : String) (addresses : List String) :
    Except BadRequestError Url :=
  if addresses.length = 0 then
    .error ⟨[("lane", lane), ("url", url.href)],
      s!"{lane} destination '{url.href}' resolves to nothing"⟩
  else
    match addresses.find? isPrivateAddress with
    | some offender =>
        .error ⟨[("lane", lane), ("url", url.href), ("address", offender)],
          s!"{lane} destination '{url.href}' resolves to the private address {offender}"⟩
    | none => .ok url

end Everdict.Contracts
