import FlowRelay.Command.Choices

/-!
# FlowRelay.Command.Notice

What a relay says about itself before it starts: the route that captures the traffic, in a frame of
two columns, and the ways to write each setting.
-/

namespace FlowRelay.Command

namespace Notice

/-- A text filled up on its right. -/
def padRight (fill : Char) (width : Nat) (text : String) : String :=
  text ++ String.ofList (List.replicate (width - text.length) fill)

/-- A text filled up on its left. -/
def padLeft (fill : Char) (width : Nat) (text : String) : String :=
  String.ofList (List.replicate (width - text.length) fill) ++ text

/-- A row of the frame, with its left and right edge. -/
def row (left right : String) (fill : Char) (label value : String) : String :=
  s!"{left}{padRight fill 10 label}{fill}{padLeft fill 15 value}{right}"

/-- A line of the frame. -/
def rule (left right : String) : String := row (left ++ "─") ("─" ++ right) '─' "" ""

/-- An entry of the frame. -/
def entry (label value : String) : String := row "│ " " │" ' ' label value

end Notice

/-- What to route where. -/
def Setup.notice (s : Setup) : List String :=
  let mark := match s.fwmark with
    | some mark => [Notice.entry "Bypass Mark" s!"{mark.toNat}"]
    | none => []
  ["Please route the traffic which is going to be relayed to the device with the following " ++
      "parameters:",
    Notice.rule "┌" "┐", Notice.entry "Device" s.interface,
    Notice.entry "IP Address" s.network.address.text, Notice.entry "Mask" s.network.mask.text,
    Notice.rule "│" "│", Notice.entry "MTU" s!"{s.config.mtu}"] ++ mark ++ [Notice.rule "└" "┘"]

/-- How a setting is written. -/
def Setting.usage (s : Setting) : String :=
  let short := match s.short? with
    | some letter => String.ofList ['-', letter, ',', ' ']
    | none => ""
  let default := match s.default? with
    | some value => s!" [default: {value}]"
    | none => ""
  s!"    {short}{s.label}{default}"

/-- How all settings are written. -/
def usage : List String := "OPTIONS:" :: Setting.all.map Setting.usage

end FlowRelay.Command
