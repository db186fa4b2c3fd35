import StorageControl.Aggregation
import StorageControl.Exit

/-! Commands of the program, and the options that all of them share. -/

set_option autoImplicit false

namespace StorageControl

inductive Command where
  | getCluster
  | getNode (name : String)
  | getNodes (names : List String)
  | getNamespace (name : String)
  | getNamespaces (names : List String)
  | getUser (name : String)
  | getUsers (names : List String)
  | getVolume (name : String)
  | getVolumes (names : List String)
  | createVolume (name description : String) (size : Nat) (filesystem : Filesystem)
      (labels : List String) (asyncMax : Option Span)
  | createNamespace (name : String) (labels : List String)
  | createUser (username password : String) (isAdmin : Bool) (groups : List String)
  | deleteVolume (name : String) (version : Option String) (asyncMax : Option Span)
  | deleteNamespace (name : String) (version : Option String)
  | deleteUser (username : String) (version : Option String)
  | setReplicas (name : String) (replicas : Nat) (version : Option String)
  | detachVolume (name : String) (version : Option String)
  deriving DecidableEq

inductive LogEncoding where
  | text
  | json
  deriving DecidableEq, Repr

def LogEncoding.name : LogEncoding → String
  | .text => "text"
  | .json => "json"

structure Options where
  endpoints : List String
  timeout : Span
  username : String
  password : String
  /-- Whether arguments are identifiers and not names. -/
  useIds : Bool
  scope : Option String
  policy : ScopePolicy
  logs : LogEncoding
  deriving DecidableEq

namespace Options

/-- The first endpoint that is not blank. -/
def endpoint (o : Options) : Except ConfigFault String :=
  match (o.endpoints.map Text.trim).find? (· ≠ "") with
  | some endpoint => .ok endpoint
  | none => .error .noEndpoint

def requiredScope (o : Options) : Except ConfigFault String :=
  match o.scope with
  | some scope => .ok scope
  | none => .error .namespaceRequired

end Options

structure Invocation where
  options : Options
  command : Command
  deriving DecidableEq

end StorageControl
