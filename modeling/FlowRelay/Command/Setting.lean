import FlowRelay.Text.Numeral

/-!
# FlowRelay.Command.Setting

What can be set on the command line: how each setting is written, what it takes as its value, and
which value it has if none is given.
-/

namespace FlowRelay.Command

/-- What can be set on the command line. -/
inductive Setting where
  | verbose
  | trace
  | interface
  | address
  | mtu
  | capacity
  | tcpIdle
  | udpIdle
  | eofIdle
  | writeTimeout
  | fwmark
  | forward
  | forwardPort
  | inspect
  | help
  | version
  deriving DecidableEq, Repr

/-- What a setting takes as its value. -/
inductive ValueKind where
  /-- It is a switch and takes none. -/
  | switch
  /-- Any text. -/
  | text (name : String)
  /-- A number that fits a word of so many bits. -/
  | number (name : String) (bits : Nat)
  deriving DecidableEq, Repr

namespace Setting

/-- All settings. -/
def all : List Setting :=
  [.verbose, .trace, .interface, .address, .mtu, .capacity, .tcpIdle, .udpIdle, .eofIdle,
    .writeTimeout, .fwmark, .forward, .forwardPort, .inspect, .help, .version]

/-- The name behind two dashes. -/
def long : Setting → String
  | .verbose => "verbose"
  | .trace => "vv"
  | .interface => "interface"
  | .address => "address"
  | .mtu => "mtu"
  | .capacity => "capacity"
  | .tcpIdle => "tcp-idle"
  | .udpIdle => "udp-idle"
  | .eofIdle => "eof-idle"
  | .writeTimeout => "write-timeout"
  | .fwmark => "fwmark"
  | .forward => "forward"
  | .forwardPort => "forward-port"
  | .inspect => "inspect"
  | .help => "help"
  | .version => "version"

/-- The letter behind a single dash. -/
def short? : Setting → Option Char
  | .verbose => some 'v'
  | .interface => some 'i'
  | .address => some 'a'
  | .mtu => some 'm'
  | .capacity => some 'c'
  | .forward => some 'f'
  | .help => some 'h'
  | .version => some 'V'
  | .trace | .tcpIdle | .udpIdle | .eofIdle | .writeTimeout | .fwmark | .forwardPort
  | .inspect => none

/-- What it takes as its value. -/
def value : Setting → ValueKind
  | .verbose | .trace | .help | .version => .switch
  | .interface => .text "NAME"
  | .address => .text "CIDR"
  | .mtu | .capacity => .number "VALUE" 64
  | .tcpIdle | .udpIdle | .eofIdle | .writeTimeout => .number "SECONDS" 64
  | .fwmark => .number "MARK" 32
  | .forward => .text "HOST:PORT"
  | .forwardPort | .inspect => .number "PORT" 16

/-- The value that it has if none is given. -/
def default? : Setting → Option String
  | .interface => some "tun2net"
  | .address => some "10.6.0.1/24"
  | .mtu => some "1500"
  | .capacity => some "500"
  | .tcpIdle => some "120"
  | .udpIdle => some "60"
  | .eofIdle => some "30"
  | .writeTimeout => some "10"
  | .forwardPort => some "80"
  | .verbose | .trace | .fwmark | .forward | .inspect | .help | .version => none

/-- Whether it may be given more than once, and takes more than one value. -/
def repeats : Setting → Bool
  | .inspect => true
  | _ => false

/-- Whether it is a switch. -/
def isSwitch (s : Setting) : Bool := s.value = .switch

/-- How it is written in messages. -/
def label (s : Setting) : String :=
  let dots := if s.repeats then "..." else ""
  match s.value with
  | .switch => s!"--{s.long}"
  | .text name | .number name _ => s!"--{s.long} <{name}>{dots}"

/-- Why a value is not one that the setting takes. -/
def fault? (s : Setting) (text : String) : Option Text.NumeralError :=
  match s.value with
  | .switch | .text _ => none
  | .number _ bits =>
    match Text.readNumeral 10 (Text.maxOfBits bits) text.toList with
    | .ok _ => none
    | .error cause => some cause

/-- The setting with a long name. -/
def ofLong? (name : String) : Option Setting := all.find? (·.long = name)

/-- The setting with a letter. -/
def ofShort? (letter : Char) : Option Setting := all.find? (·.short? = some letter)

example : Setting.label .inspect = "--inspect <PORT>..." := by decide

end Setting

end FlowRelay.Command
