import StorageControl.Fault

/-! Single calls to the server.

A call is one operation of the server with all its arguments; a change of a resource
carries the version it expects. A transport carries calls out on some state. A call that
has started waits until it takes effect, and takes effect at one moment; it may also
stay without an answer.
-/

set_option autoImplicit false

namespace StorageControl

inductive Call where
  | authenticate (username password : String)
  | getCluster
  | getNode (id : NodeId)
  | listNodes
  | getNamespace (id : NamespaceId)
  | listNamespaces
  | getUser (id : UserId)
  | listUsers
  | getVolume (scope : NamespaceId) (id : VolumeId)
  | listVolumes (scope : NamespaceId)
  | createVolume (scope : NamespaceId) (spec : VolumeSpec) (asyncMax : Option Span)
  | createNamespace (spec : NamespaceSpec)
  | createUser (spec : UserSpec)
  | deleteVolume (scope : NamespaceId) (id : VolumeId) (version : Version) (asyncMax : Option Span)
  | detachVolume (scope : NamespaceId) (id : VolumeId) (version : Version)
  | setReplicas (scope : NamespaceId) (id : VolumeId) (replicas : Nat) (version : Version)
  | deleteNamespace (id : NamespaceId) (version : Version)
  | deleteUser (id : UserId) (version : Version)
  deriving DecidableEq

namespace Call

@[reducible] def Answer : Call → Type
  | authenticate _ _ => User
  | getCluster => Cluster
  | getNode _ => Node
  | listNodes => List Node
  | getNamespace _ => Namespace
  | listNamespaces => List Namespace
  | getUser _ => User
  | listUsers => List User
  | getVolume _ _ => Volume
  | listVolumes _ => List Volume
  | createVolume _ _ _ => Volume
  | createNamespace _ => Namespace
  | createUser _ => User
  | deleteVolume _ _ _ _ => Unit
  | detachVolume _ _ _ => Unit
  | setReplicas _ _ _ _ => Volume
  | deleteNamespace _ _ => Unit
  | deleteUser _ _ => Unit

abbrev Reply (c : Call) : Type := Except TransportFault c.Answer

def name : Call → String
  | authenticate _ _ => "authenticate"
  | getCluster => "get_cluster"
  | getNode _ => "get_node"
  | listNodes => "list_nodes"
  | getNamespace _ => "get_namespace"
  | listNamespaces => "list_namespaces"
  | getUser _ => "get_user"
  | listUsers => "list_users"
  | getVolume _ _ => "get_volume"
  | listVolumes _ => "list_volumes"
  | createVolume _ _ _ => "create_volume"
  | createNamespace _ => "create_namespace"
  | createUser _ => "create_user"
  | deleteVolume _ _ _ _ => "delete_volume"
  | detachVolume _ _ _ => "detach_volume"
  | setReplicas _ _ _ _ => "set_replicas"
  | deleteNamespace _ _ => "delete_namespace"
  | deleteUser _ _ => "delete_user"

def target? : Call → Option String
  | authenticate username _ => some username
  | getNode id => some id.text
  | getNamespace id => some id.text
  | getUser id => some id.text
  | getVolume scope _ => some scope.text
  | listVolumes scope => some scope.text
  | createVolume scope _ _ => some scope.text
  | deleteVolume scope _ _ _ => some scope.text
  | detachVolume scope _ _ => some scope.text
  | setReplicas scope _ _ _ => some scope.text
  | deleteNamespace id _ => some id.text
  | deleteUser id _ => some id.text
  | _ => none

def isMutation : Call → Bool
  | createVolume _ _ _ | createNamespace _ | createUser _ => true
  | deleteVolume _ _ _ _ | detachVolume _ _ _ | setReplicas _ _ _ _ => true
  | deleteNamespace _ _ | deleteUser _ _ => true
  | _ => false

end Call

/-- Carries out calls on a state. `start` says how many milliseconds the call takes;
`land` lets it take effect, and gives no reply when none ever comes. -/
structure Transport (σ : Type) where
  start : Call → σ → Nat × σ
  land : (c : Call) → σ → Option c.Reply × σ

end StorageControl
