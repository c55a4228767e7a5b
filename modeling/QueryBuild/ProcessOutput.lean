/-!
# Outcomes of processes

What is known of a process after it ended.
-/

namespace QueryBuild

structure ProcessOutput where
  /-- The exit code; none if a signal ended the process. -/
  code : Option Int
  stderr : String
deriving DecidableEq, Inhabited

namespace ProcessOutput

/-- A process that ended well and said nothing. -/
def succeeded : ProcessOutput :=
  ⟨some 0, ""⟩

/-- Only exit code zero is a success. -/
def success (output : ProcessOutput) : Bool :=
  output.code == some 0

def describeExit (output : ProcessOutput) : String :=
  match output.code with
  | some code => "exited with status " ++ toString code
  | none => "terminated by a signal"

end ProcessOutput

end QueryBuild
