import StorageControl.Document.Writer

/-! The documents that requests carry. -/

set_option autoImplicit false

namespace StorageControl.Wire

open StorageControl.Json (Value)
open StorageControl.Document (ofId ofVersion ofLabels)

def loginBody (username password : String) : Value := .object [
  ("username", .string username),
  ("password", .string password)]

/-- A new volume; an unknown filesystem is left to the server. -/
def volumeBody (scope : NamespaceId) (spec : VolumeSpec) : Value :=
  let filesystem := match spec.filesystem.sent? with
    | some name => [("fsType", Value.string name)]
    | none => []
  .object ([
    ("namespaceID", ofId scope),
    ("name", .string spec.name),
    ("description", .string spec.description)] ++ filesystem ++ [
    ("sizeBytes", .number spec.sizeBytes),
    ("labels", ofLabels spec.labels)])

def namespaceBody (spec : NamespaceSpec) : Value := .object [
  ("name", .string spec.name),
  ("labels", ofLabels spec.labels)]

def userBody (spec : UserSpec) : Value := .object [
  ("username", .string spec.username),
  ("password", .string spec.password),
  ("isAdmin", .boolean spec.isAdmin),
  ("groups", .list (spec.groups.map ofId))]

def replicasBody (replicas : Nat) (version : Version) : Value := .object [
  ("replicas", .number replicas),
  ("version", ofVersion version)]

end StorageControl.Wire
