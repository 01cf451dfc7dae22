import FlowRelay.Text.Blank
import FlowRelay.Text.Numeral

/-!
# FlowRelay.Net.Address

IPv4 addresses and endpoints, and their text: four decimal octets with points between them, and a
colon in front of the port.  Reading accepts exactly the written form of an address: octets without
leading zeros.
-/

namespace FlowRelay.Net

/-- An IPv4 address by its four octets. -/
structure Address where
  a : UInt8
  b : UInt8
  c : UInt8
  d : UInt8
  deriving DecidableEq, Repr, Inhabited

namespace Address

/-- The address that stands for none. -/
def unspecified : Address := ⟨0, 0, 0, 0⟩

/-- The octets in the order in which they are sent. -/
def bytes (x : Address) : List UInt8 := [x.a, x.b, x.c, x.d]

/-- The address as a number, its first octet the most significant. -/
def toNat (x : Address) : Nat :=
  ((x.a.toNat * 256 + x.b.toNat) * 256 + x.c.toNat) * 256 + x.d.toNat

/-- The address with the given number, which counts modulo 2^32. -/
def ofNat (n : Nat) : Address :=
  ⟨(n / 0x1000000).toUInt8, (n / 0x10000).toUInt8, (n / 0x100).toUInt8, n.toUInt8⟩

/-- The dotted text of an address. -/
def text (x : Address) : String :=
  s!"{x.a.toNat}.{x.b.toNat}.{x.c.toNat}.{x.d.toNat}"

/-- Read an octet: decimal digits without a leading zero. -/
def octet? (digits : List Char) : Option UInt8 :=
  match digits with
  | [] => none
  | '0' :: _ :: _ => none
  | _ => (Text.readDigits 10 255 0 digits).toOption.map Nat.toUInt8

/-- Read a dotted text. -/
def ofText? (text : List Char) : Option Address :=
  match (Text.splitOn '.' text).map octet? with
  | [some a, some b, some c, some d] => some ⟨a, b, c, d⟩
  | _ => none

example : ofText? "10.6.0.1".toList = some ⟨10, 6, 0, 1⟩ := by decide

example : ofText? "10.6.00.1".toList = none := by decide

end Address

/-- A port at an address. -/
structure Endpoint where
  address : Address
  port : UInt16
  deriving DecidableEq, Repr, Inhabited

namespace Endpoint

/-- The text of an endpoint. -/
def text (e : Endpoint) : String := s!"{e.address.text}:{e.port.toNat}"

/-- Read the text of an endpoint. -/
def ofText? (text : List Char) : Option Endpoint :=
  match Text.splitOn ':' text with
  | [address, port] =>
    match Address.ofText? address, Text.readDigits 10 (Text.maxOfBits 16) 0 port with
    | some address, .ok port => some ⟨address, port.toUInt16⟩
    | _, _ => none
  | _ => none

end Endpoint

end FlowRelay.Net
