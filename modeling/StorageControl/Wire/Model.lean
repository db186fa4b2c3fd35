import StorageControl.Document.Reader

/-! Resources as the server sends them.

Every field has an empty default, so a sparse answer still reads, and unknown members
are passed over, so a newer one does. What is really needed is decided when the model
becomes a resource.
-/

set_option autoImplicit false

namespace StorageControl.Wire

open StorageControl.Json (Decoder Record Decode.string Decode.boolean Decode.word32 Decode.word64)
open StorageControl.Json.Record (defaulted optional)
open StorageControl.Document (toInstant)

structure Licence where
  clusterId : String
  expiresAt : Option Instant
  capacityBytes : Nat
  kind : String
  customerName : String
  deriving DecidableEq, Repr

structure Cluster where
  id : String
  licence : Licence
  disableTelemetry : Bool
  disableCrashReporting : Bool
  disableVersionCheck : Bool
  logLevel : String
  logFormat : String
  createdAt : Option Instant
  updatedAt : Option Instant
  version : String
  deriving DecidableEq, Repr

structure Node where
  id : String
  name : String
  health : String
  ioEndpoint : String
  supervisorEndpoint : String
  gossipEndpoint : String
  clusteringEndpoint : String
  labels : List (String × String)
  createdAt : Option Instant
  updatedAt : Option Instant
  version : String
  deriving DecidableEq, Repr

structure Namespace where
  id : String
  name : String
  labels : List (String × String)
  createdAt : Option Instant
  updatedAt : Option Instant
  version : String
  deriving DecidableEq, Repr

structure User where
  id : String
  username : String
  isAdmin : Bool
  groups : List String
  createdAt : Option Instant
  updatedAt : Option Instant
  version : String
  deriving DecidableEq, Repr

structure Deployment where
  id : String
  nodeId : String
  inode : Nat
  health : String
  syncing : Bool
  deriving DecidableEq, Repr

structure Volume where
  id : String
  name : String
  description : String
  attachedOn : String
  namespaceId : String
  labels : List (String × String)
  fsType : String
  inode : Nat
  master : Option Deployment
  replicas : Option (List Deployment)
  sizeBytes : Nat
  createdAt : Option Instant
  updatedAt : Option Instant
  version : String
  deriving DecidableEq, Repr

def Licence.empty : Licence := ⟨"", none, 0, "", ""⟩

def textField (name : String) : Record String := defaulted name Decode.string ""

def flagField (name : String) : Record Bool := defaulted name Decode.boolean false

def labelsField (name : String) : Record (List (String × String)) :=
  defaulted name (Json.Decode.map Decode.string) []

def licence : Record Licence :=
  (Record.pure Licence.mk)
    |>.seq (textField "clusterID")
    |>.seq (optional "expiresAt" toInstant)
    |>.seq (defaulted "clusterCapacityBytes" Decode.word64 0)
    |>.seq (textField "kind")
    |>.seq (textField "customerName")

def toLicence : Decoder Licence := licence.decode "struct Licence" .short

def cluster : Record Cluster :=
  (Record.pure Cluster.mk)
    |>.seq (textField "id")
    |>.seq (defaulted "licence" toLicence Licence.empty)
    |>.seq (flagField "disableTelemetry")
    |>.seq (flagField "disableCrashReporting")
    |>.seq (flagField "disableVersionCheck")
    |>.seq (textField "logLevel")
    |>.seq (textField "logFormat")
    |>.seq (optional "createdAt" toInstant)
    |>.seq (optional "updatedAt" toInstant)
    |>.seq (textField "version")

def toCluster : Decoder Cluster := cluster.decode "struct Cluster" .short

def node : Record Node :=
  (Record.pure Node.mk)
    |>.seq (textField "id")
    |>.seq (textField "name")
    |>.seq (textField "health")
    |>.seq (textField "ioEndpoint")
    |>.seq (textField "supervisorEndpoint")
    |>.seq (textField "gossipEndpoint")
    |>.seq (textField "clusteringEndpoint")
    |>.seq (labelsField "labels")
    |>.seq (optional "createdAt" toInstant)
    |>.seq (optional "updatedAt" toInstant)
    |>.seq (textField "version")

def toNode : Decoder Node := node.decode "struct Node" .short

def scope : Record Namespace :=
  (Record.pure Namespace.mk)
    |>.seq (textField "id")
    |>.seq (textField "name")
    |>.seq (labelsField "labels")
    |>.seq (optional "createdAt" toInstant)
    |>.seq (optional "updatedAt" toInstant)
    |>.seq (textField "version")

def toNamespace : Decoder Namespace := scope.decode "struct Namespace" .short

def user : Record User :=
  (Record.pure User.mk)
    |>.seq (textField "id")
    |>.seq (textField "username")
    |>.seq (flagField "isAdmin")
    |>.seq (defaulted "groups" (Json.Decode.list Decode.string) [])
    |>.seq (optional "createdAt" toInstant)
    |>.seq (optional "updatedAt" toInstant)
    |>.seq (textField "version")

def toUser : Decoder User := user.decode "struct User" .short

def deployment : Record Deployment :=
  (Record.pure Deployment.mk)
    |>.seq (textField "id")
    |>.seq (textField "nodeID")
    |>.seq (defaulted "inode" Decode.word32 0)
    |>.seq (textField "health")
    |>.seq (flagField "syncing")

def toDeployment : Decoder Deployment := deployment.decode "struct Deployment" .short

def volume : Record Volume :=
  (Record.pure Volume.mk)
    |>.seq (textField "id")
    |>.seq (textField "name")
    |>.seq (textField "description")
    |>.seq (textField "attachedOn")
    |>.seq (textField "namespaceID")
    |>.seq (labelsField "labels")
    |>.seq (textField "fsType")
    |>.seq (defaulted "inode" Decode.word32 0)
    |>.seq (optional "master" toDeployment)
    |>.seq (optional "replicas" (Json.Decode.list toDeployment))
    |>.seq (defaulted "sizeBytes" Decode.word64 0)
    |>.seq (optional "createdAt" toInstant)
    |>.seq (optional "updatedAt" toInstant)
    |>.seq (textField "version")

def toVolume : Decoder Volume := volume.decode "struct Volume" .short

def errorBody : Record String := Json.Record.required "error" Decode.string

def toErrorBody : Decoder String := errorBody.decode "struct ErrorBody" .exact

/-- The payload of a failed answer: structured when the body is an error document, and
the body as it is otherwise. -/
def payload (body : String) : Payload :=
  match Json.readText toErrorBody body with
  | .ok error => .structured error
  | .error _ => .raw body

end StorageControl.Wire
