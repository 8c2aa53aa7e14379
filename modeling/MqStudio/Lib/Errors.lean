import Mathlib

/-!
# Errors

A Go error is kept as the tree `fmt.Errorf` builds: its own text, and the error
it wraps.  Errors of packages outside the model (the file system, a driver, the
JSON decoder) are leaves.
-/

namespace Lib.Errors

inductive Error where
  /-- `errors.New(text)`. -/
  | new (text : String)
  /-- An error of the environment: a file operation, a dial. -/
  | external (text : String)
  /-- An error of the JSON decoder. -/
  | json
  /-- `fmt.Errorf("context: %w", cause)`. -/
  | wrap (context : String) (cause : Error)
  /-- `fmt.Errorf("context %q after: %w", quoted, cause)`. -/
  | wrapQuoted (context quoted after : String) (cause : Error)
  /-- `fmt.Errorf("context: %w between: %v", cause, other)`. -/
  | wrapBoth (context : String) (cause : Error) (between : String) (other : Error)
  /-- `errors.Join` of two errors. -/
  | join (first second : Error)
deriving DecidableEq

end Lib.Errors
