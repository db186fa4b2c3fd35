import StorageControl.Fault
import StorageControl.Json.Value
import StorageControl.Text.Quoted

/-! Resources, specifications and faults as JSON documents.

Every field is written, in the order of its type; an absent value is null, an attribute
is its name, labels are an object in key order.
-/

set_option autoImplicit false

namespace StorageControl.Document

open StorageControl.Json (Value)

def ofId {subject : Subject} (id : Id subject) : Value := .string id.text
def ofVersion (v : Version) : Value := .string v.text
def ofInstant (i : Instant) : Value := .string i.text
def ofLabels (labels : Labels) : Value :=
  .object (labels.entries.map fun (key, value) => (key, .string value))
def ofInstant? : Option Instant → Value := Value.optional ofInstant

def ofLicence (l : Licence) : Value := .object [
  ("cluster_id", .optional ofId l.clusterId),
  ("expires_at", ofInstant? l.expiresAt),
  ("cluster_capacity_bytes", .number l.capacityBytes),
  ("kind", .string l.kind),
  ("customer_name", .string l.customerName)]

def ofCluster (c : Cluster) : Value := .object [
  ("id", ofId c.id),
  ("licence", ofLicence c.licence),
  ("disable_telemetry", .boolean c.disableTelemetry),
  ("disable_crash_reporting", .boolean c.disableCrashReporting),
  ("disable_version_check", .boolean c.disableVersionCheck),
  ("log_level", .string c.logLevel.name),
  ("log_format", .string c.logFormat.name),
  ("created_at", ofInstant? c.createdAt),
  ("updated_at", ofInstant? c.updatedAt),
  ("version", ofVersion c.version)]

def ofNodeConfiguration (c : NodeConfiguration) : Value := .object [
  ("io_addr", .string c.io),
  ("supervisor_addr", .string c.supervisor),
  ("gossip_addr", .string c.gossip),
  ("clustering_addr", .string c.clustering)]

def ofNode (n : Node) : Value := .object [
  ("id", ofId n.id),
  ("name", .string n.name),
  ("health", .string n.health.name),
  ("labels", ofLabels n.labels),
  ("configuration", .optional ofNodeConfiguration n.configuration),
  ("created_at", ofInstant? n.createdAt),
  ("updated_at", ofInstant? n.updatedAt),
  ("version", ofVersion n.version)]

def ofNamespace (n : Namespace) : Value := .object [
  ("id", ofId n.id),
  ("name", .string n.name),
  ("labels", ofLabels n.labels),
  ("created_at", ofInstant? n.createdAt),
  ("updated_at", ofInstant? n.updatedAt),
  ("version", ofVersion n.version)]

def ofUser (u : User) : Value := .object [
  ("id", ofId u.id),
  ("username", .string u.username),
  ("is_admin", .boolean u.isAdmin),
  ("groups", .list (u.groups.map ofId)),
  ("created_at", ofInstant? u.createdAt),
  ("updated_at", ofInstant? u.updatedAt),
  ("version", ofVersion u.version)]

def ofDeployment (d : Deployment) : Value := .object [
  ("id", ofId d.id),
  ("node", ofId d.node),
  ("inode", .number d.inode),
  ("health", .string d.health.name),
  ("syncing", .boolean d.syncing)]

def ofVolume (v : Volume) : Value := .object [
  ("id", ofId v.id),
  ("name", .string v.name),
  ("description", .string v.description),
  ("size_bytes", .number v.sizeBytes),
  ("namespace", ofId v.scope),
  ("attached_on", .optional ofId v.attachedOn),
  ("labels", ofLabels v.labels),
  ("filesystem", .string v.filesystem.name),
  ("inode", .number v.inode),
  ("master", .optional ofDeployment v.master),
  ("replicas", .list (v.replicas.map ofDeployment)),
  ("created_at", ofInstant? v.createdAt),
  ("updated_at", ofInstant? v.updatedAt),
  ("version", ofVersion v.version)]

def ofVolumeSpec (s : VolumeSpec) : Value := .object [
  ("name", .string s.name),
  ("description", .string s.description),
  ("size_bytes", .number s.sizeBytes),
  ("filesystem", .string s.filesystem.name),
  ("labels", ofLabels s.labels)]

def ofNamespaceSpec (s : NamespaceSpec) : Value := .object [
  ("name", .string s.name),
  ("labels", ofLabels s.labels)]

def ofUserSpec (s : UserSpec) : Value := .object [
  ("username", .string s.username),
  ("password", .string s.password),
  ("with_admin", .boolean s.isAdmin),
  ("groups", .list (s.groups.map ofId))]

def ofPayload : Payload → Value
  | .structured error => .object [("Structured", .object [("error", .string error)])]
  | .raw body => .object [("Raw", .string body)]

def ofList {α : Type} (write : α → Value) (items : List α) : Value := .list (items.map write)

/-- What is shown of a specification for a user: all but the password. -/
def describeUserSpec (s : UserSpec) : String :=
  let groups := s.groups.map fun g => "PolicyGroupId(" ++ Text.quote g.text ++ ")"
  "UserSpec \x7b username: " ++ Text.quote s.username ++
    ", password: " ++ Text.quote "<redacted>" ++
    ", with_admin: " ++ (if s.isAdmin then "true" else "false") ++
    ", groups: [" ++ ", ".intercalate groups ++ "] \x7d"

end StorageControl.Document
