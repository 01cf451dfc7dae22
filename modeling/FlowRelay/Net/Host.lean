import FlowRelay.Net.Address

/-!
# FlowRelay.Net.Host

Hosts, which are given by an address or by a name, and ports at hosts.

A host that is not a dotted address is looked up, and the first IPv4 address that is found is the
one that is used.  The lookup is a function that is handed in, so that nothing depends on which
names a system knows.  `Lookup.numeric` is the lookup of a system that knows none: an IPv4 address
may then be written with fewer than four parts, the last part filling the octets that are left, and
each part in decimal, in octal behind a `0` or in hexadecimal behind a `0x`, and IPv6 addresses are
recognized.
-/

namespace FlowRelay.Net

namespace Host

/-! ## IPv4 -/

/-- The largest address as a number. -/
def maxNumber : Nat := 0xFFFFFFFF

/-- Digits of a base, at least one. -/
def number? (base : Nat) (digits : List Char) : Option Nat :=
  if digits.isEmpty then none else (Text.readDigits base maxNumber 0 digits).toOption

/-- Read one part of an address. -/
def part? : List Char → Option Nat
  | '0' :: 'x' :: digits | '0' :: 'X' :: digits => number? 16 digits
  | '0' :: digits => number? 8 ('0' :: digits)
  | digits => number? 10 digits

/-- The address with the given parts: all but the last are octets, and the last one fills what they
leave of the 32 bits. -/
def ofParts? : List Nat → Option Address
  | [d] => if d ≤ maxNumber then some (.ofNat d) else none
  | [a, d] => if a ≤ 0xFF ∧ d ≤ 0xFFFFFF then some (.ofNat (a * 0x1000000 + d)) else none
  | [a, b, d] =>
    if a ≤ 0xFF ∧ b ≤ 0xFF ∧ d ≤ 0xFFFF then
      some (.ofNat (a * 0x1000000 + b * 0x10000 + d))
    else none
  | [a, b, c, d] =>
    if a ≤ 0xFF ∧ b ≤ 0xFF ∧ c ≤ 0xFF ∧ d ≤ 0xFF then
      some (.ofNat (a * 0x1000000 + b * 0x10000 + c * 0x100 + d))
    else none
  | _ => none

/-- Read an IPv4 address in any of its numeric forms. -/
def ipv4? (text : List Char) : Option Address :=
  ((Text.splitOn '.' text).mapM part?).bind ofParts?

/-! ## IPv6 -/

/-- Whether a text is one group of an IPv6 address: up to four hexadecimal digits. -/
def isGroup (text : List Char) : Bool :=
  !text.isEmpty && text.length ≤ 4 && text.all fun c => (Text.digit? 16 c).isSome

/-- How many groups the pieces between colons make.  The last piece may be a dotted IPv4 address,
which makes two, if `dotted` allows it. -/
def countGroups? (dotted : Bool) : List (List Char) → Option Nat
  | [] => some 0
  | [piece] =>
    if isGroup piece then some 1
    else if dotted && (Address.ofText? piece).isSome then some 2
    else none
  | piece :: rest => if isGroup piece then (countGroups? dotted rest).map (· + 1) else none

/-- The number of groups in a text, which may be empty. -/
def groupsIn? (dotted : Bool) (text : List Char) : Option Nat :=
  if text.isEmpty then some 0 else countGroups? dotted (Text.splitOn ':' text)

/-- Split at the first two colons in a row. -/
def splitAtGap? (before : List Char) : List Char → Option (List Char × List Char)
  | ':' :: ':' :: rest => some (before.reverse, rest)
  | c :: rest => splitAtGap? (c :: before) rest
  | [] => none

/-- Whether a text is an IPv6 address: eight groups, of which two colons in a row may stand for one
or more that are zero. -/
def isIpv6 (text : List Char) : Bool :=
  match splitAtGap? [] text with
  | none => groupsIn? true text == some 8
  | some (front, back) =>
    match groupsIn? false front, groupsIn? true back with
    | some m, some n => m + n ≤ 7
    | _, _ => false

/-- Whether a text is an IPv6 address, perhaps with the number of an interface behind a percent
sign. -/
def isScopedIpv6 (text : List Char) : Bool :=
  match Text.splitOn '%' text with
  | [address] => isIpv6 address
  | [address, scope] => isIpv6 address && (number? 10 scope).isSome
  | _ => false

end Host

/-! ## Lookups -/

/-- An address that a host is found at.  Which one of IPv6 it is does not matter. -/
inductive Found where
  | ipv4 (address : Address)
  | ipv6
  deriving DecidableEq, Repr

/-- The IPv4 address that is found. -/
def Found.ipv4? : Found → Option Address
  | .ipv4 a => some a
  | .ipv6 => none

/-- What a system answers when it is asked for a host: the addresses of the host, in the order in
which they are to be tried, or the wording of its failure. -/
abbrev Lookup : Type := List Char → Except String (List Found)

/-- A system that knows addresses in their numeric forms, and no names. -/
def Lookup.numeric : Lookup := fun text =>
  if text.contains '\x00' then .error "data provided contains a nul byte"
  else
    match Host.ipv4? text with
    | some a => .ok [.ipv4 a]
    | none =>
      if Host.isScopedIpv6 text then .ok [.ipv6]
      else .error "failed to lookup address information: Name or service not known"

/-! ## Hosts -/

/-- Why a host has no IPv4 address. -/
inductive HostError where
  /-- The lookup has failed. -/
  | lookup (cause : String)
  /-- The host has IPv6 addresses only. -/
  | noIpv4
  deriving DecidableEq, Repr

/-- The wording of an error. -/
def HostError.message : HostError → String
  | .lookup cause => cause
  | .noIpv4 => "no IPv4 address resolved"

/-- The address of a host.  A text that reads as a dotted address is one, and is not looked up. -/
def Host.address (lookup : Lookup) (text : List Char) : Except HostError Address :=
  match Address.ofText? text with
  | some a => .ok a
  | none =>
    match lookup text with
    | .error cause => .error (.lookup cause)
    | .ok found =>
      match found.findSome? Found.ipv4? with
      | some a => .ok a
      | none => .error .noIpv4

example : Host.ipv4? "0x7f.1".toList = some ⟨127, 0, 0, 1⟩ := by decide

example : Host.ipv4? "1.2.3".toList = some ⟨1, 2, 0, 3⟩ := by decide

example : Host.ipv4? "08.1".toList = none := by decide

example : Host.isIpv6 "::ffff:1.2.3.4".toList = true := by decide

example : Host.isIpv6 "1:2:3:4:5:6:7::8".toList = false := by decide

/-! ## Hosts with ports -/

/-- Why a text does not name a port at a host. -/
inductive TargetError where
  | noPort
  | port (cause : Text.NumeralError)
  | host (cause : HostError)
  /-- The address is the one that stands for none. -/
  | unspecified
  deriving DecidableEq, Repr

/-- The wording of an error. -/
def TargetError.message : TargetError → String
  | .noPort => "port unspecified"
  | .port cause => cause.message
  | .host cause => cause.message
  | .unspecified => "IP address unspecified"

/-- Split at the last colon. -/
def splitAtLastColon? (text : List Char) : Option (List Char × List Char) :=
  let back := text.reverse
  if back.contains ':' then
    some (((back.dropWhile (· ≠ ':')).drop 1).reverse, (back.takeWhile (· ≠ ':')).reverse)
  else none

/-- Read a host and, behind the last colon, a port. -/
def Endpoint.ofTarget (lookup : Lookup) (text : List Char) : Except TargetError Endpoint := do
  match splitAtLastColon? text with
  | none => .error .noPort
  | some (host, port) =>
    let port ← (Text.readNumeral 10 (Text.maxOfBits 16) port).mapError TargetError.port
    let address ← (Host.address lookup host).mapError TargetError.host
    if address = .unspecified then .error .unspecified
    else .ok ⟨address, port.toUInt16⟩

end FlowRelay.Net
