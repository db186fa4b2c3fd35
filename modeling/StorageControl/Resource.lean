import StorageControl.Identifier
import StorageControl.Labels
import StorageControl.Attribute
import StorageControl.Instant

/-! The resources of a cluster and the specifications for new ones.

Resources are plain values, fetched for every use. Each carries the version it was read
at, which a later change of it presents.
-/

set_option autoImplicit false

namespace StorageControl

structure Licence where
  clusterId : Option ClusterId
  expiresAt : Option Instant
  capacityBytes : Nat
  kind : String
  customerName : String
  deriving DecidableEq, Repr

structure Cluster where
  id : ClusterId
  licence : Licence
  disableTelemetry : Bool
  disableCrashReporting : Bool
  disableVersionCheck : Bool
  logLevel : LogLevel
  logFormat : LogFormat
  createdAt : Option Instant
  updatedAt : Option Instant
  version : Version
  deriving DecidableEq, Repr

structure NodeConfiguration where
  io : String
  supervisor : String
  gossip : String
  clustering : String
  deriving DecidableEq, Repr

structure Node where
  id : NodeId
  name : String
  health : Health
  labels : Labels
  configuration : Option NodeConfiguration
  createdAt : Option Instant
  updatedAt : Option Instant
  version : Version
  deriving DecidableEq, Repr

structure Namespace where
  id : NamespaceId
  name : String
  labels : Labels
  createdAt : Option Instant
  updatedAt : Option Instant
  version : Version
  deriving DecidableEq, Repr

structure User where
  id : UserId
  username : String
  isAdmin : Bool
  groups : List PolicyGroupId
  createdAt : Option Instant
  updatedAt : Option Instant
  version : Version
  deriving DecidableEq, Repr

structure Deployment where
  id : DeploymentId
  node : NodeId
  inode : Nat
  health : Health
  syncing : Bool
  deriving DecidableEq, Repr

structure Volume where
  id : VolumeId
  name : String
  description : String
  sizeBytes : Nat
  /-- The namespace that holds the volume, for as long as it exists. -/
  scope : NamespaceId
  attachedOn : Option NodeId
  labels : Labels
  filesystem : Filesystem
  inode : Nat
  master : Option Deployment
  replicas : List Deployment
  createdAt : Option Instant
  updatedAt : Option Instant
  version : Version
  deriving DecidableEq, Repr

structure VolumeSpec where
  name : String
  description : String
  sizeBytes : Nat
  filesystem : Filesystem
  labels : Labels
  deriving DecidableEq, Repr

structure NamespaceSpec where
  name : String
  labels : Labels
  deriving DecidableEq, Repr

structure UserSpec where
  username : String
  password : String
  isAdmin : Bool
  groups : List PolicyGroupId
  deriving DecidableEq

inductive ResourceKind where
  | cluster
  | node
  | nspace
  | user
  | volume
  deriving DecidableEq, Repr

instance : Inhabited ResourceKind := ⟨.cluster⟩

def ResourceKind.name : ResourceKind → String
  | .cluster => "cluster"
  | .node => "node"
  | .nspace => "namespace"
  | .user => "user"
  | .volume => "volume"

def ResourceKind.all : List ResourceKind := [.cluster, .node, .nspace, .user, .volume]

/-- A resource that can be asked for by its identifier or by its name. Names are meant
to be unique in their scope, but no caller relies on it. -/
class Named (R : Type) where
  subject : Subject
  kind : ResourceKind
  id : R → Id subject
  name : R → String

instance : Named Node := ⟨.node, .node, Node.id, Node.name⟩
instance : Named Namespace := ⟨.nspace, .nspace, Namespace.id, Namespace.name⟩
instance : Named User := ⟨.user, .user, User.id, User.username⟩
instance : Named Volume := ⟨.volume, .volume, Volume.id, Volume.name⟩

end StorageControl
