import Weaving.Demo

/-
The command line: runs the demonstration in the environment of the process.
-/
namespace Weaving.Demo

/-- Prints how the demonstration went; the answer is its exit code. -/
def tell (outcome : Outcome) : IO UInt32 := do
  for line in outcome.printed do
    IO.println line
  for line in outcome.reported do
    IO.eprintln line
  return outcome.code.toUInt32

/-- The variables of the environment that are set, of several. -/
def environmentOf (names : List String) : IO (List (String × String)) := do
  let mut found := []
  for name in names do
    match ← IO.getEnv name with
    | some value => found := found ++ [(name, value)]
    | none => pure ()
  return found

end Weaving.Demo

/-- Runs the demonstration. -/
def main : IO UInt32 := do
  let names := ({} : Weaving.Flags).entries.map fun e => Weaving.Flags.variableName e.1
  let environment ← Weaving.Demo.environmentOf names
  match Weaving.Demo.run fun name => Weaving.Assoc.get? name environment with
  | some outcome => Weaving.Demo.tell outcome
  | none => return 1
