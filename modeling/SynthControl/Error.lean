import SynthControl.Operation
import SynthControl.Text.Quoted

/-!
# Errors

What the control side of a performance, and the configuration, can fail with.

* `Error` — the causes;
* `Error.message` — their texts.

Misuse of the life cycle, such as stopping twice, is no error: it is answered by a status.
-/

namespace SynthControl

/-- Why a request of the control side, or of the configuration, fails. -/
inductive Error where
  /-- The configuration holds a value that cannot be used. -/
  | config (text : String)
  /-- There is no configuration file at its place. -/
  | configNotFound (path : String)
  | disconnected
  /-- The engine, or the worker that hosts it, refused a request. -/
  | remote (request : String) (text : String)
  /-- There is no operation of this name. -/
  | unknownOperation (name : String)
  /-- An operation was given a wrong number of arguments. -/
  | arity (operation : String) (expected got : Nat)
  /-- A file could not be read or written. -/
  | io
  /-- A file is no configuration in its format. -/
  | malformed
  /-- The configuration cannot be expressed in its file format. -/
  | inexpressible
  deriving DecidableEq, Repr

/-- The text of an error. -/
def Error.message : Error → String
  | config text => "Configuration error: " ++ text
  | configNotFound path => "Config file not found at " ++ Text.quoted path
  | disconnected => "Engine worker disconnected"
  | remote request text => "Remote call " ++ request ++ " failed: " ++ text
  | unknownOperation name => "Unknown engine operation: " ++ name
  | arity operation expected got =>
    "Wrong arity for " ++ operation ++ ": expected " ++ toString expected ++ ", got " ++ toString got
  | io => "IO error"
  | malformed => "TOML parse error"
  | inexpressible => "TOML serialization error"

/-- The complaint about a wrong number of arguments of an operation. -/
def Error.wrongArity (op : Operation) (got : Nat) : Error := arity op.name op.arity got

end SynthControl
