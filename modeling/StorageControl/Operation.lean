import StorageControl.Aggregation
import StorageControl.Call
import StorageControl.Command.Argument
import StorageControl.Selection

/-! The operations of the client.

An operation is a named program of calls: what it calls next depends only on the replies
so far. No operation retries. A change without a known version first reads the resource
once and presents the version that it finds.
-/

set_option autoImplicit false

namespace StorageControl

/-- Calls and what follows from their replies. `gather` lists the volumes of many
namespaces at once. -/
inductive Program (α : Type) where
  | done (result : Except ApiFault α)
  | call (c : Call) (next : c.Reply → Program α)
  | gather (policy : ScopePolicy) (scopes : List NamespaceId)
      (next : Except ApiFault (Aggregation Volume) → Program α)

namespace Program

variable {α β : Type}

/-- Make a call and go on with its answer; a fault ends the program. -/
def ask (c : Call) (next : c.Answer → Program α) : Program α :=
  .call c fun
    | .ok answer => next answer
    | .error fault => .done (.error fault.sort)

def only (c : Call) : Program c.Answer := ask c fun answer => .done (.ok answer)

/-- A call that reads a resource, and where its answer has the version. -/
structure VersionRead where
  call : Call
  version : call.Answer → Version

/-- Present a version to a change: the given one, or the one that a single read brings. -/
def guarded (constraint : VersionConstraint) (read : VersionRead) (change : Version → Call)
    (next : (v : Version) → (change v).Answer → α) : Program α :=
  let present (v : Version) : Program α := ask (change v) fun answer => .done (.ok (next v answer))
  match constraint with
  | .conditional v => present v
  | .unconditional => ask read.call fun answer => present (read.version answer)

def allVolumes (policy : ScopePolicy) (pick : List Volume → Except ApiFault α) : Program α :=
  ask .listNamespaces fun namespaces =>
    .gather policy (namespaces.map Namespace.id) fun
      | .ok aggregation => .done (pick aggregation.items)
      | .error fault => .done (.error fault)

end Program

structure Operation (α : Type) where
  name : String
  program : Program α

namespace Operation

open Program (ask only guarded allVolumes)

def authenticate (username password : String) : Operation User :=
  ⟨"authenticate", only (.authenticate username password)⟩

def getCluster : Operation Cluster := ⟨"get cluster", only .getCluster⟩

def getNode (id : NodeId) : Operation Node := ⟨"get node", only (.getNode id)⟩

def getNodeByName (name : String) : Operation Node :=
  ⟨"get node by name", ask .listNodes fun nodes => .done (Selection.byName nodes name)⟩

def getNodes (ids : List NodeId) : Operation (List Node) :=
  ⟨"list nodes", ask .listNodes fun nodes => .done (Selection.byIds nodes ids)⟩

def getNodesByName (names : List String) : Operation (List Node) :=
  ⟨"list nodes", ask .listNodes fun nodes => .done (Selection.byNames nodes names)⟩

def getNamespace (id : NamespaceId) : Operation Namespace :=
  ⟨"get namespace", only (.getNamespace id)⟩

def getNamespaceByName (name : String) : Operation Namespace :=
  ⟨"get namespace by name", ask .listNamespaces fun all => .done (Selection.byName all name)⟩

def getNamespaces (ids : List NamespaceId) : Operation (List Namespace) :=
  ⟨"list namespaces", ask .listNamespaces fun all => .done (Selection.byIds all ids)⟩

def getNamespacesByName (names : List String) : Operation (List Namespace) :=
  ⟨"list namespaces", ask .listNamespaces fun all => .done (Selection.byNames all names)⟩

def getUser (id : UserId) : Operation User := ⟨"get user", only (.getUser id)⟩

def getUserByName (name : String) : Operation User :=
  ⟨"get user by name", ask .listUsers fun users => .done (Selection.byName users name)⟩

def getUsers (ids : List UserId) : Operation (List User) :=
  ⟨"list users", ask .listUsers fun users => .done (Selection.byIds users ids)⟩

def getUsersByName (names : List String) : Operation (List User) :=
  ⟨"list users", ask .listUsers fun users => .done (Selection.byNames users names)⟩

def getVolume (scope : NamespaceId) (id : VolumeId) : Operation Volume :=
  ⟨"get volume", only (.getVolume scope id)⟩

def getVolumeByName (scope : NamespaceId) (name : String) : Operation Volume :=
  ⟨"get volume by name", ask (.listVolumes scope) fun all => .done (Selection.byName all name)⟩

def getNamespaceVolumes (scope : NamespaceId) (ids : List VolumeId) : Operation (List Volume) :=
  ⟨"list volumes", ask (.listVolumes scope) fun all => .done (Selection.byIds all ids)⟩

def getNamespaceVolumesByName (scope : NamespaceId) (names : List String) :
    Operation (List Volume) :=
  ⟨"list volumes", ask (.listVolumes scope) fun all => .done (Selection.byNames all names)⟩

def getAllVolumes (policy : ScopePolicy) (ids : List VolumeId) : Operation (List Volume) :=
  ⟨"list volumes in all namespaces", allVolumes policy fun all => Selection.byIds all ids⟩

def getAllVolumesByName (policy : ScopePolicy) (names : List String) : Operation (List Volume) :=
  ⟨"list volumes in all namespaces", allVolumes policy fun all => Selection.byNames all names⟩

def createVolume (scope : NamespaceId) (spec : VolumeSpec) (asyncMax : Option Span) :
    Operation Volume :=
  ⟨"create volume", only (.createVolume scope spec asyncMax)⟩

def createNamespace (spec : NamespaceSpec) : Operation Namespace :=
  ⟨"create namespace", only (.createNamespace spec)⟩

def createUser (spec : UserSpec) : Operation User := ⟨"create user", only (.createUser spec)⟩

def volumeVersion (scope : NamespaceId) (id : VolumeId) : Program.VersionRead :=
  ⟨.getVolume scope id, Volume.version⟩

def deleteVolume (scope : NamespaceId) (id : VolumeId) (constraint : VersionConstraint)
    (asyncMax : Option Span) : Operation Unit :=
  ⟨"delete volume", guarded constraint (volumeVersion scope id)
    (fun v => .deleteVolume scope id v asyncMax) fun _ _ => ()⟩

def detachVolume (scope : NamespaceId) (id : VolumeId) (constraint : VersionConstraint) :
    Operation Unit :=
  ⟨"detach volume", guarded constraint (volumeVersion scope id)
    (fun v => .detachVolume scope id v) fun _ _ => ()⟩

def setReplicas (scope : NamespaceId) (id : VolumeId) (replicas : Nat)
    (constraint : VersionConstraint) : Operation Volume :=
  ⟨"set replicas", guarded constraint (volumeVersion scope id)
    (fun v => .setReplicas scope id replicas v) fun _ volume => volume⟩

def deleteNamespace (id : NamespaceId) (constraint : VersionConstraint) : Operation Unit :=
  ⟨"delete namespace", guarded constraint ⟨.getNamespace id, Namespace.version⟩
    (fun v => .deleteNamespace id v) fun _ _ => ()⟩

def deleteUser (id : UserId) (constraint : VersionConstraint) : Operation Unit :=
  ⟨"delete user", guarded constraint ⟨.getUser id, User.version⟩
    (fun v => .deleteUser id v) fun _ _ => ()⟩

end Operation

end StorageControl
