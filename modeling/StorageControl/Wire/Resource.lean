import StorageControl.Wire.Model

/-! From the server's models to resources.

A resource without its identifier or its version could not be addressed or changed, so
that makes an answer useless; everything else may be missing. Unknown attributes read as
unknown, empty identifiers that may be absent as absent, and the first instant of the
year 1 as unset.
-/

set_option autoImplicit false

namespace StorageControl.Wire

def needed {α : Type} (resource field : String) : Option α → Except TransportFault α
  | some a => .ok a
  | none => .error (.decode (resource ++ " has no " ++ field))

/-- An instant unless it stands for an unset one. -/
def setInstant (i : Option Instant) : Option Instant := i.filter (· ≠ Instant.unset)

def Cluster.resource (m : Cluster) : Except TransportFault StorageControl.Cluster := do
  let id ← needed "cluster" "id" (Id.ofText? m.id)
  let version ← needed "cluster" "version" (Version.ofText? m.version)
  pure {
    id
    licence := {
      clusterId := Id.ofText? m.licence.clusterId
      expiresAt := setInstant m.licence.expiresAt
      capacityBytes := m.licence.capacityBytes
      kind := m.licence.kind
      customerName := m.licence.customerName }
    disableTelemetry := m.disableTelemetry
    disableCrashReporting := m.disableCrashReporting
    disableVersionCheck := m.disableVersionCheck
    logLevel := LogLevel.ofName m.logLevel
    logFormat := LogFormat.ofName m.logFormat
    createdAt := setInstant m.createdAt
    updatedAt := setInstant m.updatedAt
    version }

def Node.configuration (m : Node) : Option NodeConfiguration :=
  let c : NodeConfiguration :=
    ⟨m.ioEndpoint, m.supervisorEndpoint, m.gossipEndpoint, m.clusteringEndpoint⟩
  if c = ⟨"", "", "", ""⟩ then none else some c

def Node.resource (m : Node) : Except TransportFault StorageControl.Node := do
  let id ← needed "node" "id" (Id.ofText? m.id)
  let version ← needed "node" "version" (Version.ofText? m.version)
  pure {
    id
    name := m.name
    health := Health.ofName m.health
    labels := Labels.ofList m.labels
    configuration := m.configuration
    createdAt := setInstant m.createdAt
    updatedAt := setInstant m.updatedAt
    version }

def Namespace.resource (m : Namespace) : Except TransportFault StorageControl.Namespace := do
  let id ← needed "namespace" "id" (Id.ofText? m.id)
  let version ← needed "namespace" "version" (Version.ofText? m.version)
  pure {
    id
    name := m.name
    labels := Labels.ofList m.labels
    createdAt := setInstant m.createdAt
    updatedAt := setInstant m.updatedAt
    version }

def User.resource (m : User) : Except TransportFault StorageControl.User := do
  let id ← needed "user" "id" (Id.ofText? m.id)
  let version ← needed "user" "version" (Version.ofText? m.version)
  pure {
    id
    username := m.username
    isAdmin := m.isAdmin
    groups := m.groups.filterMap Id.ofText?
    createdAt := setInstant m.createdAt
    updatedAt := setInstant m.updatedAt
    version }

def Deployment.resource (m : Deployment) : Except TransportFault StorageControl.Deployment := do
  let id ← needed "deployment" "id" (Id.ofText? m.id)
  let node ← needed "deployment" "node" (Id.ofText? m.nodeId)
  pure {
    id
    node
    inode := m.inode
    health := Health.ofName m.health
    syncing := m.syncing }

/-- Turn models into resources in order; the first that cannot be one ends it. -/
def all {M R : Type} (resource : M → Except TransportFault R) :
    List M → Except TransportFault (List R)
  | [] => .ok []
  | m :: rest => do
    let r ← resource m
    let more ← all resource rest
    pure (r :: more)

def Volume.resource (m : Volume) : Except TransportFault StorageControl.Volume := do
  let master ← match m.master with
    | none => pure none
    | some d => some <$> d.resource
  let replicas ← all Deployment.resource (m.replicas.getD [])
  let id ← needed "volume" "id" (Id.ofText? m.id)
  let scope ← needed "volume" "namespace" (Id.ofText? m.namespaceId)
  let version ← needed "volume" "version" (Version.ofText? m.version)
  pure {
    id
    name := m.name
    description := m.description
    sizeBytes := m.sizeBytes
    scope
    attachedOn := Id.ofText? m.attachedOn
    labels := Labels.ofList m.labels
    filesystem := Filesystem.ofName m.fsType
    inode := m.inode
    master
    replicas
    createdAt := setInstant m.createdAt
    updatedAt := setInstant m.updatedAt
    version }

/-- Read a text as a model and the model as a resource; a flaw of the text comes first. -/
def read {M R : Type} (decode : Json.Decoder M) (resource : M → Except TransportFault R)
    (body : List Text.Rune) : Except TransportFault R :=
  match Json.readRunes decode body with
  | .ok m => resource m
  | .error cause => .error (.decode cause.message)

def readAll {M R : Type} (decode : Json.Decoder M) (resource : M → Except TransportFault R)
    (body : List Text.Rune) : Except TransportFault (List R) :=
  read (Json.Decode.list decode) (all resource) body

end StorageControl.Wire
