import CallChart.Graph.Error
import CallChart.Json.Fault

/-! Failures of the program as a whole: what went wrong at bottom, and what was being done. -/

namespace CallChart

inductive SystemError where
  | notFound
  | alreadyThere
  | notDirectory
  | isDirectory
  | nameTooLong
  | badPath
  | notText
deriving DecidableEq, Repr

def SystemError.message : SystemError → String
  | notFound => "No such file or directory (os error 2)"
  | alreadyThere => "File exists (os error 17)"
  | notDirectory => "Not a directory (os error 20)"
  | isDirectory => "Is a directory (os error 21)"
  | nameTooLong => "File name too long (os error 36)"
  | badPath => "file name contained an unexpected NUL byte"
  | notText => "stream did not contain valid UTF-8"

inductive Cause where
  | graph (fault : GraphError)
  | system (fault : SystemError)
  | json (fault : Json.Fault)
  | toml
  | message (text : String)

/-- The wording of a cause. Where a document is unsound there is none: what was being read says
enough. -/
def Cause.message? : Cause → Option String
  | graph fault => some fault.message
  | system fault => some fault.message
  | json (.mismatch mismatch) => some mismatch.message
  | json _ => none
  | toml => none
  | message text => some text

/-- A cause with what was being done, outermost first. -/
structure Failure where
  contexts : List String := []
  cause : Cause

namespace Failure

def message (failure : Failure) : String :=
  ": ".intercalate (failure.contexts ++ failure.cause.message?.toList)

def plain (text : String) : Failure := { cause := .message text }

end Failure

def during {α : Type} (context : String) : Except Failure α → Except Failure α
  | .ok value => .ok value
  | .error failure => .error { failure with contexts := context :: failure.contexts }

def failing {ε α : Type} (cause : ε → Cause) : Except ε α → Except Failure α
  | .ok value => .ok value
  | .error fault => .error { cause := cause fault }

end CallChart
