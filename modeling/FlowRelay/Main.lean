import FlowRelay.Command.Notice

/-!
# FlowRelay.Main

The command line: it reads the settings of a relay, checks them and says what to route where.
-/

namespace FlowRelay.Command

/-- Print lines one by one. -/
def printAll (lines : List String) : IO Unit := lines.forM IO.println

/-- Answer a command line, with the exit status. -/
def answer (arguments : List String) : IO UInt32 := do
  match Choices.ofArguments arguments with
  | .error .help =>
    printAll usage
    return 0
  | .error e =>
    IO.eprintln e.message
    return 1
  | .ok choices =>
    match choices.validate .numeric with
    | .error e =>
      IO.eprintln e.message
      return 1
    | .ok setup =>
      printAll setup.notice
      return 0

end FlowRelay.Command

/-- The program. -/
def main (arguments : List String) : IO UInt32 := FlowRelay.Command.answer arguments
