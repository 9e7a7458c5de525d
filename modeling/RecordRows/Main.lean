import RecordRows.Demo.Session

/-!
The command line of the demonstration session. The log filter comes from the environment.
-/
namespace RecordRows.Demo

/-- The variable that holds the log filter. -/
def filterVariable : String := "RUST_LOG"

end RecordRows.Demo

def main : IO UInt32 := do
  let (lines, code) := RecordRows.Demo.run (← IO.getEnv RecordRows.Demo.filterVariable)
  for line in lines do IO.println line
  return code.toUInt32
