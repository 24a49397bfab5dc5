import Tipping.Tasks.Plan

/-!
The command line of the task runner. It shows the plan of the task it is given: what would be
said, and which programs would be started, in order.
-/

namespace Tipping.Tasks

def Step.shown : Step → String
  | say text => text
  | start program arguments => "$ " ++ commandLine program arguments
  | require path => "$ test -e " ++ path
  | removeDirectory path => "$ rm -r " ++ path

end Tipping.Tasks

def main (arguments : List String) : IO UInt32 := do
  match Tipping.Tasks.Command.ofArguments? arguments with
  | none =>
    IO.eprintln "usage: (build [-r | --release] | test | clippy | clean) [--]"
    return 2
  | some command =>
    for step in command.plan do
      IO.println step.shown
    return 0
