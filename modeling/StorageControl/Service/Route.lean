import StorageControl.Call
import StorageControl.Http.Message
import StorageControl.Wire.Body
import StorageControl.Wire.Resource

/-! What each call asks of the service, and how it reads the answer.

Identifiers stand in paths as they are. A change names the version that it expects in
the query, except for the number of replicas, which has it in the body.
-/

set_option autoImplicit false

namespace StorageControl

open StorageControl.Json (Value)

structure Route where
  method : Http.Method
  path : String
  query : List (String × String)
  body : Option Value

namespace Route

def get (path : String) : Route := ⟨.get, path, [], none⟩
def post (path : String) (body : Value) : Route := ⟨.post, path, [], some body⟩

def nodePath (id : NodeId) : String := "/nodes/" ++ id.text
def namespacePath (id : NamespaceId) : String := "/namespaces/" ++ id.text
def userPath (id : UserId) : String := "/users/" ++ id.text
def volumesPath (scope : NamespaceId) : String := namespacePath scope ++ "/volumes"
def volumePath (scope : NamespaceId) (id : VolumeId) : String := volumesPath scope ++ "/" ++ id.text

def versionPair (v : Version) : String × String := ("version", v.text)

/-- A time that the service may take in the background, in whole milliseconds. -/
def asyncPairs (asyncMax : Option Span) : List (String × String) :=
  match asyncMax with
  | some bound => [("asyncMax", toString bound.milliseconds ++ "ms")]
  | none => []

def delete (path : String) (version : Version) (asyncMax : Option Span) : Route :=
  ⟨.delete, path, versionPair version :: asyncPairs asyncMax, none⟩

end Route

open Route in
def Call.route : Call → Route
  | .authenticate username password => post "/auth/login" (Wire.loginBody username password)
  | .getCluster => get "/cluster"
  | .getNode id => get (nodePath id)
  | .listNodes => get "/nodes"
  | .getNamespace id => get (namespacePath id)
  | .listNamespaces => get "/namespaces"
  | .getUser id => get (userPath id)
  | .listUsers => get "/users"
  | .getVolume scope id => get (volumePath scope id)
  | .listVolumes scope => get (volumesPath scope)
  | .createVolume scope spec asyncMax =>
    ⟨.post, volumesPath scope, asyncPairs asyncMax, some (Wire.volumeBody scope spec)⟩
  | .createNamespace spec => post "/namespaces" (Wire.namespaceBody spec)
  | .createUser spec => post "/users" (Wire.userBody spec)
  | .deleteVolume scope id version asyncMax => delete (volumePath scope id) version asyncMax
  | .detachVolume scope id version => delete (volumePath scope id ++ "/attach") version none
  | .setReplicas scope id replicas version =>
    ⟨.put, volumePath scope id ++ "/replicas", [], some (Wire.replicasBody replicas version)⟩
  | .deleteNamespace id version => delete (namespacePath id) version none
  | .deleteUser id version => delete (userPath id) version none

/-- Read the body of a successful answer; nothing is read where nothing is expected. -/
def Call.readBody : (c : Call) → List Text.Rune → c.Reply
  | .authenticate _ _ => Wire.read Wire.toUser Wire.User.resource
  | .getCluster => Wire.read Wire.toCluster Wire.Cluster.resource
  | .getNode _ => Wire.read Wire.toNode Wire.Node.resource
  | .listNodes => Wire.readAll Wire.toNode Wire.Node.resource
  | .getNamespace _ => Wire.read Wire.toNamespace Wire.Namespace.resource
  | .listNamespaces => Wire.readAll Wire.toNamespace Wire.Namespace.resource
  | .getUser _ => Wire.read Wire.toUser Wire.User.resource
  | .listUsers => Wire.readAll Wire.toUser Wire.User.resource
  | .getVolume _ _ => Wire.read Wire.toVolume Wire.Volume.resource
  | .listVolumes _ => Wire.readAll Wire.toVolume Wire.Volume.resource
  | .createVolume _ _ _ => Wire.read Wire.toVolume Wire.Volume.resource
  | .createNamespace _ => Wire.read Wire.toNamespace Wire.Namespace.resource
  | .createUser _ => Wire.read Wire.toUser Wire.User.resource
  | .deleteVolume _ _ _ _ => fun _ => .ok ()
  | .detachVolume _ _ _ => fun _ => .ok ()
  | .setReplicas _ _ _ _ => Wire.read Wire.toVolume Wire.Volume.resource
  | .deleteNamespace _ _ => fun _ => .ok ()
  | .deleteUser _ _ => fun _ => .ok ()

def Call.expectsBody : Call → Bool
  | .deleteVolume _ _ _ _ | .detachVolume _ _ _ => false
  | .deleteNamespace _ _ | .deleteUser _ _ => false
  | _ => true

end StorageControl
