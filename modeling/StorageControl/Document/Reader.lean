import StorageControl.Fault
import StorageControl.Instant.Reader
import StorageControl.Json.Decode
import StorageControl.Json.Reader

/-! Reading the program's own documents.

A document has every field of its type, except that an optional field may be missing.
Identifiers and versions must not be empty.
-/

set_option autoImplicit false

namespace StorageControl.Document

open StorageControl.Json (Decoder Record Decode.string Decode.boolean Decode.word32 Decode.word64)
open StorageControl.Json.Record (required optional)

def toId (subject : Subject) : Decoder (Id subject) := Json.Decode.refine Decode.string Id.ofText

def toVersion : Decoder Version := Json.Decode.refine Decode.string Version.ofText

def toInstant : Decoder Instant :=
  Json.Decode.refine (Json.Decode.stringAs "an RFC 3339 formatted date and time string")
    Instant.ofText

def toLabels : Decoder Labels := fun t => do
  let pairs ← Json.Decode.map Decode.string t
  pure (Labels.ofList pairs)

def toHealth : Decoder Health := Json.Decode.choice (Health.all.map fun h => (h.name, h))

def toFilesystem : Decoder Filesystem :=
  Json.Decode.choice (Filesystem.all.map fun fs => (fs.name, fs))

def toLogLevel : Decoder LogLevel := Json.Decode.choice (LogLevel.all.map fun l => (l.name, l))

def toLogFormat : Decoder LogFormat := Json.Decode.choice (LogFormat.all.map fun f => (f.name, f))

def toResourceKind : Decoder ResourceKind :=
  Json.Decode.choice (ResourceKind.all.map fun k => (k.name, k))

def toFaultKind : Decoder FaultKind := Json.Decode.choice (FaultKind.all.map fun k => (k.name, k))

def licence : Record Licence :=
  (Record.pure Licence.mk)
    |>.seq (optional "cluster_id" (toId .cluster))
    |>.seq (optional "expires_at" toInstant)
    |>.seq (required "cluster_capacity_bytes" Decode.word64)
    |>.seq (required "kind" Decode.string)
    |>.seq (required "customer_name" Decode.string)

def toLicence : Decoder Licence := licence.decode "struct Licence" .exact

def cluster : Record Cluster :=
  (Record.pure Cluster.mk)
    |>.seq (required "id" (toId .cluster))
    |>.seq (required "licence" toLicence)
    |>.seq (required "disable_telemetry" Decode.boolean)
    |>.seq (required "disable_crash_reporting" Decode.boolean)
    |>.seq (required "disable_version_check" Decode.boolean)
    |>.seq (required "log_level" toLogLevel)
    |>.seq (required "log_format" toLogFormat)
    |>.seq (optional "created_at" toInstant)
    |>.seq (optional "updated_at" toInstant)
    |>.seq (required "version" toVersion)

def toCluster : Decoder Cluster := cluster.decode "struct Cluster" .exact

def nodeConfiguration : Record NodeConfiguration :=
  (Record.pure NodeConfiguration.mk)
    |>.seq (required "io_addr" Decode.string)
    |>.seq (required "supervisor_addr" Decode.string)
    |>.seq (required "gossip_addr" Decode.string)
    |>.seq (required "clustering_addr" Decode.string)

def toNodeConfiguration : Decoder NodeConfiguration :=
  nodeConfiguration.decode "struct NodeConfiguration" .exact

def node : Record Node :=
  (Record.pure Node.mk)
    |>.seq (required "id" (toId .node))
    |>.seq (required "name" Decode.string)
    |>.seq (required "health" toHealth)
    |>.seq (required "labels" toLabels)
    |>.seq (optional "configuration" toNodeConfiguration)
    |>.seq (optional "created_at" toInstant)
    |>.seq (optional "updated_at" toInstant)
    |>.seq (required "version" toVersion)

def toNode : Decoder Node := node.decode "struct Node" .exact

def scope : Record Namespace :=
  (Record.pure Namespace.mk)
    |>.seq (required "id" (toId .nspace))
    |>.seq (required "name" Decode.string)
    |>.seq (required "labels" toLabels)
    |>.seq (optional "created_at" toInstant)
    |>.seq (optional "updated_at" toInstant)
    |>.seq (required "version" toVersion)

def toNamespace : Decoder Namespace := scope.decode "struct Namespace" .exact

def user : Record User :=
  (Record.pure User.mk)
    |>.seq (required "id" (toId .user))
    |>.seq (required "username" Decode.string)
    |>.seq (required "is_admin" Decode.boolean)
    |>.seq (required "groups" (Json.Decode.list (toId .policyGroup)))
    |>.seq (optional "created_at" toInstant)
    |>.seq (optional "updated_at" toInstant)
    |>.seq (required "version" toVersion)

def toUser : Decoder User := user.decode "struct User" .exact

def deployment : Record Deployment :=
  (Record.pure Deployment.mk)
    |>.seq (required "id" (toId .deployment))
    |>.seq (required "node" (toId .node))
    |>.seq (required "inode" Decode.word32)
    |>.seq (required "health" toHealth)
    |>.seq (required "syncing" Decode.boolean)

def toDeployment : Decoder Deployment := deployment.decode "struct Deployment" .exact

def volume : Record Volume :=
  (Record.pure Volume.mk)
    |>.seq (required "id" (toId .volume))
    |>.seq (required "name" Decode.string)
    |>.seq (required "description" Decode.string)
    |>.seq (required "size_bytes" Decode.word64)
    |>.seq (required "namespace" (toId .nspace))
    |>.seq (optional "attached_on" (toId .node))
    |>.seq (required "labels" toLabels)
    |>.seq (required "filesystem" toFilesystem)
    |>.seq (required "inode" Decode.word32)
    |>.seq (optional "master" toDeployment)
    |>.seq (required "replicas" (Json.Decode.list toDeployment))
    |>.seq (optional "created_at" toInstant)
    |>.seq (optional "updated_at" toInstant)
    |>.seq (required "version" toVersion)

def toVolume : Decoder Volume := volume.decode "struct Volume" .exact

def volumeSpec : Record VolumeSpec :=
  (Record.pure VolumeSpec.mk)
    |>.seq (required "name" Decode.string)
    |>.seq (required "description" Decode.string)
    |>.seq (required "size_bytes" Decode.word64)
    |>.seq (required "filesystem" toFilesystem)
    |>.seq (required "labels" toLabels)

def toVolumeSpec : Decoder VolumeSpec := volumeSpec.decode "struct VolumeSpec" .exact

def namespaceSpec : Record NamespaceSpec :=
  (Record.pure NamespaceSpec.mk)
    |>.seq (required "name" Decode.string)
    |>.seq (required "labels" toLabels)

def toNamespaceSpec : Decoder NamespaceSpec := namespaceSpec.decode "struct NamespaceSpec" .exact

def userSpec : Record UserSpec :=
  (Record.pure UserSpec.mk)
    |>.seq (required "username" Decode.string)
    |>.seq (required "password" Decode.string)
    |>.seq (required "with_admin" Decode.boolean)
    |>.seq (required "groups" (Json.Decode.list (toId .policyGroup)))

def toUserSpec : Decoder UserSpec := userSpec.decode "struct UserSpec" .exact

def structuredPayload : Record Payload :=
  (Record.pure Payload.structured).seq (required "error" Decode.string)

/-- The body of a failed answer: one of its two forms by name, with its content. -/
def toPayload : Decoder Payload :=
  Json.Decode.variant ["Structured", "Raw"]
    (fun name => .error (.mismatch .unitVariant
      (if name = "Raw" then "newtype variant" else "struct variant")))
    (fun name t =>
      if name = "Raw" then (Decode.string t).map .raw
      else structuredPayload.decode "struct variant ErrorPayload::Structured" .exact t)

end StorageControl.Document
