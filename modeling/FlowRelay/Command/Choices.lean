import FlowRelay.Command.Line
import FlowRelay.Net.Cidr
import FlowRelay.Net.Host
import FlowRelay.Relay.Config

/-!
# FlowRelay.Command.Choices

What a command line asks for, and the settings of a relay that follow from it.  Not everything that
can be asked for can be had: addresses have to be addresses, and sizes have to make sense.  The
interface is looked at first, then the address, the packet size, the capacity and the proxy.
-/

namespace FlowRelay.Command

/-- What a command line asks for. -/
structure Choices where
  verbose : Bool
  trace : Bool
  interface : String
  address : String
  mtu : Nat
  capacity : Nat
  /-- Times are in seconds. -/
  tcpIdle : Nat
  udpIdle : Nat
  eofIdle : Nat
  writeTimeout : Nat
  fwmark : Option UInt32
  forward : Option String
  forwardPort : UInt16
  inspect : List UInt16
  deriving DecidableEq, Repr

namespace Choices

/-- What has been asked for by a line that has been read and checked. -/
def ofLine (l : Line) : Choices :=
  let text (s : Setting) : String := (l.values s).headD ""
  let number (s : Setting) : Nat := (l.numbers s).headD 0
  { verbose := l.isOn .verbose
    trace := l.isOn .trace
    interface := text .interface
    address := text .address
    mtu := number .mtu
    capacity := number .capacity
    tcpIdle := number .tcpIdle
    udpIdle := number .udpIdle
    eofIdle := number .eofIdle
    writeTimeout := number .writeTimeout
    fwmark := (l.numbers .fwmark).head?.map Nat.toUInt32
    forward := (l.values .forward).head?
    forwardPort := (number .forwardPort).toUInt16
    inspect := (l.numbers .inspect).map Nat.toUInt16 }

/-- Read a command line. -/
def ofArguments (arguments : List String) : Except LineError Choices :=
  (Line.ofArguments arguments).map ofLine

end Choices

/-- Why a relay cannot be had as asked for. -/
inductive Refusal where
  | noInterface
  | address (text : String) (cause : Net.CidrError)
  /-- The address is the one that stands for none. -/
  | unspecified (text : String)
  | mtu (size : Nat)
  | noCapacity
  | forward (text : String) (cause : Net.TargetError)
  deriving DecidableEq, Repr

/-- The smallest packet size of a device. -/
def minMtu : Nat := 576

/-- The largest packet size of a device. -/
def maxMtu : Nat := 65535

/-- The wording of a refusal. -/
def Refusal.message : Refusal → String
  | .noInterface => "validate interface: name unspecified"
  | .address text cause => s!"validate address {text}: {cause.message}"
  | .unspecified text => s!"validate address {text}: IP address unspecified"
  | .mtu size => s!"validate MTU {size}: out of range {minMtu}-{maxMtu}"
  | .noCapacity => "validate capacity: must be positive"
  | .forward text cause => s!"validate forward {text}: {cause.message}"

/-- How a relay is set up. -/
structure Setup where
  interface : String
  network : Net.Cidr
  fwmark : Option UInt32
  forward : Option Net.Endpoint
  forwardPort : UInt16
  config : Config
  deriving DecidableEq, Repr

namespace Choices

/-- The settings of the relay itself. -/
def config (c : Choices) : Config :=
  { capacity := c.capacity, tcpIdle := 1000 * c.tcpIdle, udpIdle := 1000 * c.udpIdle
    eofIdle := 1000 * c.eofIdle, writeTimeout := 1000 * c.writeTimeout, mtu := c.mtu
    inspectPorts := c.inspect }

/-- Read the proxy. -/
def readForward (lookup : Net.Lookup) : Option String → Except Refusal (Option Net.Endpoint)
  | none => .ok none
  | some text =>
    match Net.Endpoint.ofTarget lookup text.toList with
    | .ok target => .ok (some target)
    | .error cause => .error (.forward text cause)

/-- Check what is asked for, where the host of the proxy is found by a lookup. -/
def validate (c : Choices) (lookup : Net.Lookup := .numeric) : Except Refusal Setup :=
  if c.interface.isEmpty then .error .noInterface
  else
    match Net.Cidr.ofText c.address.toList with
    | .error cause => .error (.address c.address cause)
    | .ok network =>
      if network.address = .unspecified then .error (.unspecified c.address)
      else if c.mtu < minMtu ∨ maxMtu < c.mtu then .error (.mtu c.mtu)
      else if c.capacity = 0 then .error .noCapacity
      else
        (readForward lookup c.forward).map fun forward =>
          { interface := c.interface, network, fwmark := c.fwmark, forward
            forwardPort := c.forwardPort, config := c.config }

end Choices

namespace Setup

/-- How outbound sockets are kept out of the capture. -/
def protection (s : Setup) : Net.Protection :=
  match s.fwmark with
  | some mark => .mark mark
  | none => .none

/-- Where flows are connected to. -/
def proxy (s : Setup) : Net.Proxy :=
  match s.forward with
  | some target => .forward s.forwardPort target
  | none => .unset s.forwardPort

end Setup

end FlowRelay.Command
