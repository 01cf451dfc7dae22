import FlowRelay.Command.Setting

/-!
# FlowRelay.Command.Line

Reading a command line.

1. An argument that starts with a dash names settings: one behind two dashes, or one for each letter
   behind a single dash.  A dash alone is an ordinary word.
2. The value of a setting stands behind an equals sign, directly behind its letter, or in the next
   argument if that is an ordinary word.  A setting that repeats takes ordinary words until the next
   setting is named.
3. An ordinary word that is nobody's value is refused, and so is everything behind two dashes that
   stand alone.
4. A setting without a value has its default.  One that has no default needs a value, and one that
   does not repeat may be named only once.
-/

namespace FlowRelay.Command

/-- Why a command line is refused, or is answered with something else than its settings. -/
inductive LineError where
  /-- No setting is written like this, and no value is expected here. -/
  | unknown (text : String)
  /-- A value is not one that its setting takes. -/
  | value (setting : Setting) (cause : Text.NumeralError)
  /-- A setting is named without the value that it needs. -/
  | missing (setting : Setting)
  /-- A setting is named more than once. -/
  | repeated (setting : Setting)
  /-- The usage is asked for. -/
  | help
  /-- The version is asked for. -/
  | version
  deriving DecidableEq, Repr

/-- The text up to the end of its first line. -/
def firstLine (text : String) : String :=
  let line := text.toList.takeWhile (· ≠ '\n')
  let ended := text.toList.contains '\n' && line.getLast? = some '\r'
  String.ofList (if ended then line.dropLast else line)

/-- The wording of an error, in one line. -/
def LineError.message : LineError → String
  | .unknown text =>
    firstLine
      s!"error: Found argument '{text}' which wasn't expected, or isn't valid in this context"
  | .value s cause => s!"error: Invalid value for '{s.label}': {cause.message}"
  | .missing s => s!"error: The argument '{s.label}' requires a value but none was supplied"
  | .repeated s =>
    s!"error: The argument '{s.label}' was provided more than once, " ++
      "but cannot be used multiple times"
  | .help | .version => ""

/-- What has been said about a setting. -/
structure Mention where
  setting : Setting
  occurrences : Nat
  values : List String
  deriving DecidableEq, Repr

/-- What has been read of a command line. -/
structure Line where
  /-- What has been said, in the order in which the settings came up. -/
  mentions : List Mention
  /-- The setting that takes the next ordinary word as a value. -/
  waiting : Option Setting
  /-- Two dashes have ended the settings. -/
  ended : Bool
  deriving DecidableEq, Repr

namespace Line

/-- Nothing has been read yet. -/
def empty : Line := ⟨[], none, false⟩

/-- What has been said about a setting. -/
def mention (l : Line) (s : Setting) : Mention :=
  (l.mentions.find? (·.setting = s)).getD ⟨s, 0, []⟩

/-- Change what has been said about a setting. -/
def modify (l : Line) (s : Setting) (f : Mention → Mention) : Line :=
  if l.mentions.any (·.setting = s) then
    { l with mentions := l.mentions.map fun m => if m.setting = s then f m else m }
  else { l with mentions := l.mentions ++ [f ⟨s, 0, []⟩] }

/-- A setting has got a value. -/
def addValue (l : Line) (s : Setting) (value : String) : Line :=
  l.modify s fun m => { m with values := m.values ++ [value] }

/-- A setting has been named. -/
def count (l : Line) (s : Setting) : Line :=
  { l.modify s fun m => { m with occurrences := m.occurrences + 1 } with waiting := none }

/-- A value without the equals signs in front of it. -/
def bare (value : List Char) : String := String.ofList (value.dropWhile (· = '='))

/-- A setting that takes a value has been named, perhaps with its value. -/
def name (l : Line) (s : Setting) : Option (List Char) → Line
  | some value => (l.addValue s (bare value)).count s
  | none => { l.count s with waiting := some s }

/-- A switch has been named. -/
def flip (l : Line) : Setting → Except LineError Line
  | .help => .error .help
  | .version => .error .version
  | s => .ok (l.count s)

/-- Read what stands behind two dashes. -/
def readLong (l : Line) (text : List Char) : Except LineError Line :=
  let label := String.ofList (text.takeWhile (· ≠ '='))
  match Setting.ofLong? label with
  | none => .error (.unknown s!"--{label}")
  | some s =>
    if s.isSwitch then l.flip s
    else .ok (l.name s (if text.contains '=' then some (text.dropWhile (· ≠ '=')) else none))

/-- Read the letters behind a single dash. -/
def readShort (l : Line) : List Char → Except LineError Line
  | [] => .ok l
  | c :: rest =>
    match Setting.ofShort? c with
    | none => .error (.unknown (String.ofList ['-', c]))
    | some s =>
      if s.isSwitch then
        match l.flip s with
        | .ok l => readShort l rest
        | .error e => .error e
      else .ok (l.name s (if rest.isEmpty then none else some rest))

/-- Read an ordinary word. -/
def readWord (l : Line) (text : String) : Except LineError Line :=
  match l.waiting with
  | some s => .ok { l.addValue s text with waiting := if s.repeats then some s else none }
  | none => .error (.unknown text)

/-- Read an argument. -/
def read (l : Line) (argument : String) : Except LineError Line :=
  if l.ended then .error (.unknown argument)
  else
    match argument.toList with
    | ['-', '-'] => .ok { l with ended := true }
    | '-' :: '-' :: text => l.readLong (text.dropWhile (· = '-'))
    | ['-'] => l.readWord argument
    | '-' :: letters => l.readShort letters
    | _ => l.readWord argument

/-! ## The end of the line -/

/-- Whether a setting lacks the value that it needs. -/
def lacksValue (m : Mention) : Bool :=
  !m.setting.isSwitch && m.values.isEmpty && m.setting.default?.isNone

/-- What is wrong with what has been said about a setting. -/
def fault? (m : Mention) : Option LineError :=
  if lacksValue m then some (.missing m.setting)
  else
    match m.values.findSome? m.setting.fault? with
    | some cause => some (.value m.setting cause)
    | none =>
      if 1 < m.occurrences ∧ !m.setting.repeats then some (.repeated m.setting) else none

/-- Check a line that has been read.  A setting that still waits for its value is seen first. -/
def check (l : Line) : Except LineError Line :=
  let waiting := (l.waiting.map l.mention).toList.filter lacksValue
  match (waiting ++ l.mentions).findSome? fault? with
  | some e => .error e
  | none => .ok l

/-- Read a command line. -/
def ofArguments (arguments : List String) : Except LineError Line := do
  (← arguments.foldlM read empty).check

/-! ## Values -/

/-- Whether a switch has been named. -/
def isOn (l : Line) (s : Setting) : Bool := l.mentions.any (·.setting = s)

/-- The values of a setting. -/
def values (l : Line) (s : Setting) : List String :=
  let given := (l.mention s).values
  if given.isEmpty then s.default?.toList else given

/-- The values of a setting as numbers. -/
def numbers (l : Line) (s : Setting) : List Nat :=
  (l.values s).filterMap fun v =>
    (Text.readNumeral 10 (Text.maxOfBits 64) v.toList).toOption

end Line

end FlowRelay.Command
