import StorageControl.Exit

/-! Arguments of commands as values of the domain. -/

set_option autoImplicit false

namespace StorageControl

/-- Which version a change presents to the server: the one that a fresh read brings, or
one that the caller knows. -/
inductive VersionConstraint where
  | unconditional
  | conditional (version : Version)
  deriving DecidableEq, Repr

namespace Argument

def constraint : Option String → Except ConfigFault VersionConstraint
  | none => .ok .unconditional
  | some text =>
    match Version.ofText? text with
    | some v => .ok (.conditional v)
    | none => .error .emptyVersion

def id {subject : Subject} (kind text : String) : Except ConfigFault (Id subject) :=
  match Id.ofText? text with
  | some id => .ok id
  | none => .error (.emptyId kind)

/-- Arguments taken as identifiers; the first empty one fails them all. -/
def ids {subject : Subject} (kind : String) (texts : List String) :
    Except ConfigFault (List (Id subject)) :=
  texts.mapM (id kind)

def labels (pairs : List String) : Except ConfigFault Labels :=
  (Labels.ofPairs pairs).mapError .labels

end Argument

end StorageControl
