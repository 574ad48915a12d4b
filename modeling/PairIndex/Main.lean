import PairIndex.Command.Help
import PairIndex.Command.Run

/-! The program. Settings are taken from the environment and from a file `.env`; the ledger is a history on standard
input, a JSON list of transactions, oldest first. -/

namespace PairIndex

/-- The environment that the program was started in. -/
def currentEnvironment : IO Environment := do
  let bindings ← Settings.names.filterMapM fun name => do return (← IO.getEnv name).map ((name, ·))
  let file ← try some <$> IO.FS.readFile ".env" catch _ => pure none
  return { bindings, file }

/-- Does a command, prints what it has to say, and gives the code to end with. -/
def runCommand (command : Command) : IO Nat := do
  match Settings.read (← currentEnvironment) with
  | .error errors =>
    for e in errors do IO.eprintln e.line
    return 1
  | .ok settings =>
    let ending := command.perform settings (← (← IO.getStdin).readToEnd)
    for line in ending.complaints do IO.eprintln line
    for line in ending.lines do IO.println line
    return ending.code

/-- Reads the command line and does what it asks for. -/
def program (arguments : List String) : IO UInt32 := do
  match Command.read arguments with
  | .ok command => return UInt32.ofNat (← runCommand command)
  | .error e =>
    for line in e.lines do IO.println line
    if e = .misuse then for line in generalHelp.take 1 do IO.eprintln line
    return UInt32.ofNat e.code

end PairIndex

def main (arguments : List String) : IO UInt32 :=
  PairIndex.program arguments
