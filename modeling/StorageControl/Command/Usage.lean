import StorageControl.Exit

/-! Ways to call the program that lead to no command.

A caller may ask for help or for the version; anything else that is not a command is a
wrong use.
-/

set_option autoImplicit false

namespace StorageControl

inductive Usage where
  | help
  | version
  | overview
  | noCommand
  | unknownCommand
  | unknownArgument
  | missingArgument
  | conflict
  /-- A value is missing, or none of those on offer. -/
  | notOffered
  | unexpectedValue
  | malformed
  deriving DecidableEq, Repr

def Usage.message : Usage → String
  | .help => "help was asked for"
  | .version => "the version was asked for"
  | .overview | .noCommand => "a command is required"
  | .unknownCommand => "unknown command"
  | .unknownArgument => "unknown argument"
  | .missingArgument => "a required argument is missing"
  | .conflict => "an option stands more than once"
  | .notOffered => "an option needs another value"
  | .unexpectedValue => "an option takes no value"
  | .malformed => "a value cannot be read"

def Usage.isRequest : Usage → Bool
  | .help | .version => true
  | _ => false

/-- The exit code: what was asked for is no failure. -/
def Usage.exit (u : Usage) : Nat := if u.isRequest then 0 else Exit.usage

end StorageControl
