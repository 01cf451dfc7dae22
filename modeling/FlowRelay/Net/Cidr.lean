import FlowRelay.Net.Address

/-!
# FlowRelay.Net.Cidr

An address together with the length of its network prefix, written `10.6.0.1/24`.  The length may
also be given by the netmask, or left out for a single host.
-/

namespace FlowRelay.Net

/-- An address in a network. -/
structure Cidr where
  address : Address
  /-- How many leading bits of the address name the network. -/
  length : Fin 33
  deriving DecidableEq, Repr

/-- Why a text is not an address in a network. -/
inductive CidrError where
  | address (text : String)
  /-- Neither a number up to 32 nor a netmask. -/
  | length
  /-- There is more than one slash. -/
  | slashes (text : String)
  deriving DecidableEq, Repr

/-- The wording of an error. -/
def CidrError.message : CidrError → String
  | .address text => s!"invalid address: {text}"
  | .length => "invalid prefix"
  | .slashes text => s!"invalid cidr format: CIDR must contain a single '/': {text}"

namespace Cidr

/-- The netmask of a length: so many ones in front, zeros behind them. -/
def maskOf (length : Fin 33) : Address := .ofNat (0x100000000 - (1 <<< (32 - length.val)))

/-- The netmask of the network. -/
def mask (c : Cidr) : Address := maskOf c.length

/-- The text with the length as a number. -/
def text (c : Cidr) : String := s!"{c.address.text}/{c.length.val}"

/-- The length that a netmask stands for.  Ones behind a zero make it none. -/
def lengthOfMask? (mask : Address) : Option (Fin 33) :=
  (List.finRange 33).find? (maskOf · = mask)

/-- Read a length, as a number or as a netmask. -/
def length? (text : List Char) : Option (Fin 33) :=
  match Address.ofText? text with
  | some mask => lengthOfMask? mask
  | none =>
    match Text.readNumeral 10 255 text with
    | .ok n => if h : n < 33 then some ⟨n, h⟩ else none
    | .error _ => none

/-- Read an address. -/
def readAddress (text : List Char) : Except CidrError Address :=
  match Address.ofText? text with
  | some a => .ok a
  | none => .error (.address (String.ofList text))

/-- Read an address in a network. -/
def ofText (text : List Char) : Except CidrError Cidr :=
  match Text.splitOn '/' text with
  | [address] => (readAddress address).map (⟨·, 32⟩)
  | [address, length] => do
    let address ← readAddress address
    match length? length with
    | some length => .ok ⟨address, length⟩
    | none => .error .length
  | _ => .error (.slashes (String.ofList text))

example : (length? "255.255.255.0".toList).map Fin.val = some 24 := by decide

example : length? "255.0.255.0".toList = none := by decide

end Cidr

end FlowRelay.Net
