import Funge93.Machine.Step

/-!
# Failures

A program itself cannot fail: each instruction has a meaning in every state. What
can fail is what lies around a run. The program text may not be readable, input
may not be text, output may find no room, and a line may be offered to a run that
does not wait for one.
-/

namespace Funge93

inductive IoFailure where
  /-- What was read is not UTF-8. -/
  | notText
  /-- Not all that was to be written found room. -/
  | noRoom
  | noSuchFile
  | notDirectory
  | isDirectory
  | other (text : String)
deriving DecidableEq

namespace IoFailure

def message : IoFailure → String
  | notText => "stream did not contain valid UTF-8"
  | noRoom => "failed to write whole buffer"
  | noSuchFile => "No such file or directory (os error 2)"
  | notDirectory => "Not a directory (os error 20)"
  | isDirectory => "Is a directory (os error 21)"
  | other text => text

end IoFailure

inductive Failure where
  | program (path : String) (cause : IoFailure)
  /-- Input could not be read or output could not be written. -/
  | io (cause : IoFailure)
  /-- A line was offered to a run that does not wait for one. -/
  | input (cause : Machine.NotAwaiting)
deriving DecidableEq

namespace Failure

def message : Failure → String
  | program path cause => "cannot read program " ++ path ++ ": " ++ cause.message
  | io cause => "i/o error: " ++ cause.message
  | input cause => cause.message

end Failure

end Funge93
