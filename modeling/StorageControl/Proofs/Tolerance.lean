import StorageControl.Proofs.Members
import StorageControl.Proofs.Volumes

/-! Sparse and newer answers.

An answer may have members that this client does not know, with values of any kind and
depth, beside those of the resource or inside its licence and its copies. They are passed
over. Members other than the identifiers and the version may be missing: the resource is
then the same with nothing in the place of the field.
-/

set_option autoImplicit false

namespace StorageControl

open Json (cleared cleared_of_ne cleared_self apply_cleared)

/-! ### Resources without a field -/

def Licence.none : Licence := ⟨Option.none, Option.none, 0, "", ""⟩

def Licence.without (removed : String) (l : Licence) : Licence where
  clusterId := cleared removed "clusterID" Option.none l.clusterId
  expiresAt := cleared removed "expiresAt" Option.none l.expiresAt
  capacityBytes := cleared removed "clusterCapacityBytes" 0 l.capacityBytes
  kind := cleared removed "kind" "" l.kind
  customerName := cleared removed "customerName" "" l.customerName

def Cluster.without (removed : String) (r : Cluster) : Cluster where
  id := r.id
  licence := cleared removed "licence" .none r.licence
  disableTelemetry := cleared removed "disableTelemetry" false r.disableTelemetry
  disableCrashReporting := cleared removed "disableCrashReporting" false r.disableCrashReporting
  disableVersionCheck := cleared removed "disableVersionCheck" false r.disableVersionCheck
  logLevel := cleared removed "logLevel" .unknown r.logLevel
  logFormat := cleared removed "logFormat" .unknown r.logFormat
  createdAt := cleared removed "createdAt" none r.createdAt
  updatedAt := cleared removed "updatedAt" none r.updatedAt
  version := r.version

/-- The addresses without one of them, unless all are empty then. -/
def NodeConfiguration.without (removed : String) (c : NodeConfiguration) :
    Option NodeConfiguration :=
  let left : NodeConfiguration := {
    io := cleared removed "ioEndpoint" "" c.io
    supervisor := cleared removed "supervisorEndpoint" "" c.supervisor
    gossip := cleared removed "gossipEndpoint" "" c.gossip
    clustering := cleared removed "clusteringEndpoint" "" c.clustering }
  if left = ⟨"", "", "", ""⟩ then none else some left

def Node.without (removed : String) (r : Node) : Node where
  id := r.id
  name := cleared removed "name" "" r.name
  health := cleared removed "health" .unknown r.health
  labels := cleared removed "labels" .empty r.labels
  configuration := r.configuration.bind (·.without removed)
  createdAt := cleared removed "createdAt" none r.createdAt
  updatedAt := cleared removed "updatedAt" none r.updatedAt
  version := r.version

def Namespace.without (removed : String) (r : Namespace) : Namespace where
  id := r.id
  name := cleared removed "name" "" r.name
  labels := cleared removed "labels" .empty r.labels
  createdAt := cleared removed "createdAt" none r.createdAt
  updatedAt := cleared removed "updatedAt" none r.updatedAt
  version := r.version

def User.without (removed : String) (r : User) : User where
  id := r.id
  username := cleared removed "username" "" r.username
  isAdmin := cleared removed "isAdmin" false r.isAdmin
  groups := cleared removed "groups" [] r.groups
  createdAt := cleared removed "createdAt" none r.createdAt
  updatedAt := cleared removed "updatedAt" none r.updatedAt
  version := r.version

def Deployment.without (removed : String) (r : Deployment) : Deployment where
  id := r.id
  node := r.node
  inode := cleared removed "inode" 0 r.inode
  health := cleared removed "health" .unknown r.health
  syncing := cleared removed "syncing" false r.syncing

def Volume.without (removed : String) (r : Volume) : Volume where
  id := r.id
  name := cleared removed "name" "" r.name
  description := cleared removed "description" "" r.description
  sizeBytes := cleared removed "sizeBytes" 0 r.sizeBytes
  scope := r.scope
  attachedOn := cleared removed "attachedOn" none r.attachedOn
  labels := cleared removed "labels" .empty r.labels
  filesystem := cleared removed "fsType" .unknown r.filesystem
  inode := cleared removed "inode" 0 r.inode
  master := cleared removed "master" none r.master
  replicas := cleared removed "replicas" [] r.replicas
  createdAt := cleared removed "createdAt" none r.createdAt
  updatedAt := cleared removed "updatedAt" none r.updatedAt
  version := r.version

namespace Wire

open Json (Decoder Record Tree Written Decode.option_carries Decode.list_carries)
open Json.Record (Follows With Without follows_pure follows_without follows_same follows_edit
  decode_gains decode_loses decode_within)

/-! ### Models without a field -/

def Licence.without (removed : String) (m : Licence) : Licence where
  clusterId := cleared removed "clusterID" "" m.clusterId
  expiresAt := cleared removed "expiresAt" none m.expiresAt
  capacityBytes := cleared removed "clusterCapacityBytes" 0 m.capacityBytes
  kind := cleared removed "kind" "" m.kind
  customerName := cleared removed "customerName" "" m.customerName

def Cluster.without (removed : String) (m : Cluster) : Cluster where
  id := cleared removed "id" "" m.id
  licence := cleared removed "licence" .empty m.licence
  disableTelemetry := cleared removed "disableTelemetry" false m.disableTelemetry
  disableCrashReporting := cleared removed "disableCrashReporting" false m.disableCrashReporting
  disableVersionCheck := cleared removed "disableVersionCheck" false m.disableVersionCheck
  logLevel := cleared removed "logLevel" "" m.logLevel
  logFormat := cleared removed "logFormat" "" m.logFormat
  createdAt := cleared removed "createdAt" none m.createdAt
  updatedAt := cleared removed "updatedAt" none m.updatedAt
  version := cleared removed "version" "" m.version

def Node.without (removed : String) (m : Node) : Node where
  id := cleared removed "id" "" m.id
  name := cleared removed "name" "" m.name
  health := cleared removed "health" "" m.health
  ioEndpoint := cleared removed "ioEndpoint" "" m.ioEndpoint
  supervisorEndpoint := cleared removed "supervisorEndpoint" "" m.supervisorEndpoint
  gossipEndpoint := cleared removed "gossipEndpoint" "" m.gossipEndpoint
  clusteringEndpoint := cleared removed "clusteringEndpoint" "" m.clusteringEndpoint
  labels := cleared removed "labels" [] m.labels
  createdAt := cleared removed "createdAt" none m.createdAt
  updatedAt := cleared removed "updatedAt" none m.updatedAt
  version := cleared removed "version" "" m.version

def Namespace.without (removed : String) (m : Namespace) : Namespace where
  id := cleared removed "id" "" m.id
  name := cleared removed "name" "" m.name
  labels := cleared removed "labels" [] m.labels
  createdAt := cleared removed "createdAt" none m.createdAt
  updatedAt := cleared removed "updatedAt" none m.updatedAt
  version := cleared removed "version" "" m.version

def User.without (removed : String) (m : User) : User where
  id := cleared removed "id" "" m.id
  username := cleared removed "username" "" m.username
  isAdmin := cleared removed "isAdmin" false m.isAdmin
  groups := cleared removed "groups" [] m.groups
  createdAt := cleared removed "createdAt" none m.createdAt
  updatedAt := cleared removed "updatedAt" none m.updatedAt
  version := cleared removed "version" "" m.version

def Deployment.without (removed : String) (m : Deployment) : Deployment where
  id := cleared removed "id" "" m.id
  nodeId := cleared removed "nodeID" "" m.nodeId
  inode := cleared removed "inode" 0 m.inode
  health := cleared removed "health" "" m.health
  syncing := cleared removed "syncing" false m.syncing

def Volume.without (removed : String) (m : Volume) : Volume where
  id := cleared removed "id" "" m.id
  name := cleared removed "name" "" m.name
  description := cleared removed "description" "" m.description
  attachedOn := cleared removed "attachedOn" "" m.attachedOn
  namespaceId := cleared removed "namespaceID" "" m.namespaceId
  labels := cleared removed "labels" [] m.labels
  fsType := cleared removed "fsType" "" m.fsType
  inode := cleared removed "inode" 0 m.inode
  master := cleared removed "master" none m.master
  replicas := cleared removed "replicas" none m.replicas
  sizeBytes := cleared removed "sizeBytes" 0 m.sizeBytes
  createdAt := cleared removed "createdAt" none m.createdAt
  updatedAt := cleared removed "updatedAt" none m.updatedAt
  version := cleared removed "version" "" m.version

section Loses

variable (removed : String)

theorem licence_loses : Decoder.Carries toLicence (Tree.Loses removed) (·.without removed) := by
  refine decode_loses ?_ _ _
  repeat refine Follows.seq ?_ (follows_without removed _ _ _)
  exact follows_pure fun _ _ => by intros; subst_vars; rfl

theorem cluster_loses : Decoder.Carries toCluster (Tree.Loses removed) (·.without removed) := by
  refine decode_loses ?_ _ _
  repeat refine Follows.seq ?_ (follows_without removed _ _ _)
  exact follows_pure fun _ _ => by intros; subst_vars; rfl

theorem node_loses : Decoder.Carries toNode (Tree.Loses removed) (·.without removed) := by
  refine decode_loses ?_ _ _
  repeat refine Follows.seq ?_ (follows_without removed _ _ _)
  exact follows_pure fun _ _ => by intros; subst_vars; rfl

theorem namespace_loses : Decoder.Carries toNamespace (Tree.Loses removed) (·.without removed) := by
  refine decode_loses ?_ _ _
  repeat refine Follows.seq ?_ (follows_without removed _ _ _)
  exact follows_pure fun _ _ => by intros; subst_vars; rfl

theorem user_loses : Decoder.Carries toUser (Tree.Loses removed) (·.without removed) := by
  refine decode_loses ?_ _ _
  repeat refine Follows.seq ?_ (follows_without removed _ _ _)
  exact follows_pure fun _ _ => by intros; subst_vars; rfl

theorem deployment_loses :
    Decoder.Carries toDeployment (Tree.Loses removed) (·.without removed) := by
  refine decode_loses ?_ _ _
  repeat refine Follows.seq ?_ (follows_without removed _ _ _)
  exact follows_pure fun _ _ => by intros; subst_vars; rfl

theorem volume_loses : Decoder.Carries toVolume (Tree.Loses removed) (·.without removed) := by
  refine decode_loses ?_ _ _
  repeat refine Follows.seq ?_ (follows_without removed _ _ _)
  exact follows_pure fun _ _ => by intros; subst_vars; rfl

end Loses

/-! ### Models with an edit inside -/

section Within

variable {edit : Tree → Tree → Prop}

theorem cluster_within {change : Licence → Licence}
    (carries : Decoder.Carries toLicence edit change) :
    Decoder.Carries toCluster (Tree.Within "licence" edit)
      fun m => { m with licence := change m.licence } := by
  refine decode_within ?_ rfl _ _
  iterate 8 refine Follows.seq ?_ (follows_same (by decide) _ _)
  refine Follows.seq (Follows.seq ?_ (follows_same (by decide) _ _)) (follows_edit carries _ _)
  exact follows_pure fun _ _ => by intros; subst_vars; rfl

theorem volume_within_master {change : Deployment → Deployment}
    (carries : Decoder.Carries toDeployment edit change)
    (nested : ∀ t t', edit t t' → t.IsNested ∧ t'.IsNested) :
    Decoder.Carries toVolume (Tree.Within "master" edit)
      fun m => { m with master := m.master.map change } := by
  refine decode_within ?_ rfl _ _
  iterate 5 refine Follows.seq ?_ (follows_same (by decide) _ _)
  refine Follows.seq ?_ (follows_edit (Decode.option_carries carries nested) _ _)
  iterate 8 refine Follows.seq ?_ (follows_same (by decide) _ _)
  exact follows_pure fun _ _ => by intros; subst_vars; rfl

theorem volume_within_replica {change : Deployment → Deployment}
    (carries : Decoder.Carries toDeployment edit change) (index : Nat) :
    Decoder.Carries toVolume (Tree.Within "replicas" (Tree.AtItem index edit))
      fun m => { m with replicas := m.replicas.map (·.modify index change) } := by
  have nested : ∀ t t', Tree.AtItem index edit t t' → t.IsNested ∧ t'.IsNested := by
    rintro _ _ ⟨_, _, _, _, -, -, rfl, rfl⟩
    exact ⟨trivial, trivial⟩
  refine decode_within ?_ rfl _ _
  iterate 4 refine Follows.seq ?_ (follows_same (by decide) _ _)
  refine Follows.seq ?_
    (follows_edit (Decode.option_carries (Decode.list_carries carries index) nested) _ _)
  iterate 9 refine Follows.seq ?_ (follows_same (by decide) _ _)
  exact follows_pure fun _ _ => by intros; subst_vars; rfl

end Within

/-! ### Resources of such models -/

/-- What can be made of a value and of nothing can be made of a field that may be gone. -/
theorem cleared_ok {α β : Type} (make : α → Except TransportFault β) (empty : α) {value : α}
    {nothing made : β} (absent : make empty = .ok nothing) (there : make value = .ok made)
    (removed field : String) :
    make (cleared removed field empty value) = .ok (cleared removed field nothing made) := by
  unfold cleared
  split
  · exact absent
  · exact there

def Licence.resource (m : Licence) : StorageControl.Licence where
  clusterId := Id.ofText? m.clusterId
  expiresAt := setInstant m.expiresAt
  capacityBytes := m.capacityBytes
  kind := m.kind
  customerName := m.customerName

section Resources

variable {removed : String}

theorem licence_without (m : Licence) :
    (m.without removed).resource = m.resource.without removed := by
  rw [Licence.resource, StorageControl.Licence.without, StorageControl.Licence.mk.injEq]
  exact ⟨apply_cleared Id.ofText? _ _ _ _, apply_cleared setInstant _ _ _ _, rfl, rfl, rfl⟩

theorem cluster_without {m : Cluster} {r : StorageControl.Cluster} (made : m.resource = .ok r)
    (id : removed ≠ "id") (version : removed ≠ "version") :
    (m.without removed).resource = .ok (r.without removed) := by
  obtain ⟨_, idThere, made⟩ := of_bind_ok made
  obtain ⟨_, versionThere, made⟩ := of_bind_ok made
  cases made
  simp only [Cluster.resource, Cluster.without, cleared_of_ne id, cleared_of_ne version, idThere,
    versionThere, StorageControl.Cluster.without]
  refine congrArg Except.ok ?_
  rw [StorageControl.Cluster.mk.injEq]
  exact ⟨rfl, apply_cleared Licence.resource _ _ _ _, rfl, rfl, rfl,
    apply_cleared LogLevel.ofName _ _ _ _, apply_cleared LogFormat.ofName _ _ _ _,
    apply_cleared setInstant _ _ _ _, apply_cleared setInstant _ _ _ _, rfl⟩

/-- The addresses of a node without one of them. -/
theorem configuration_without (m : Node) :
    (m.without removed).configuration = m.configuration.bind (·.without removed) := by
  rw [Node.configuration, Node.configuration]
  by_cases empty : (⟨m.ioEndpoint, m.supervisorEndpoint, m.gossipEndpoint, m.clusteringEndpoint⟩ :
      NodeConfiguration) = ⟨"", "", "", ""⟩
  · rw [if_pos empty]
    obtain ⟨io, supervisor, gossip, clustering⟩ := NodeConfiguration.mk.inj empty
    simp only [Node.without, io, supervisor, gossip, clustering, cleared_self]
    rfl
  · rw [if_neg empty]
    rfl

theorem node_without {m : Node} {r : StorageControl.Node} (made : m.resource = .ok r)
    (id : removed ≠ "id") (version : removed ≠ "version") :
    (m.without removed).resource = .ok (r.without removed) := by
  obtain ⟨_, idThere, made⟩ := of_bind_ok made
  obtain ⟨_, versionThere, made⟩ := of_bind_ok made
  cases made
  rw [Node.resource, configuration_without]
  simp only [Node.without, cleared_of_ne id, cleared_of_ne version, idThere, versionThere,
    StorageControl.Node.without]
  refine congrArg Except.ok ?_
  rw [StorageControl.Node.mk.injEq]
  exact ⟨rfl, rfl, apply_cleared Health.ofName _ _ _ _, apply_cleared Labels.ofList _ _ _ _, rfl,
    apply_cleared setInstant _ _ _ _, apply_cleared setInstant _ _ _ _, rfl⟩

theorem namespace_without {m : Namespace} {r : StorageControl.Namespace} (made : m.resource = .ok r)
    (id : removed ≠ "id") (version : removed ≠ "version") :
    (m.without removed).resource = .ok (r.without removed) := by
  obtain ⟨_, idThere, made⟩ := of_bind_ok made
  obtain ⟨_, versionThere, made⟩ := of_bind_ok made
  cases made
  simp only [Namespace.resource, Namespace.without, cleared_of_ne id, cleared_of_ne version, idThere,
    versionThere, StorageControl.Namespace.without]
  refine congrArg Except.ok ?_
  rw [StorageControl.Namespace.mk.injEq]
  exact ⟨rfl, rfl, apply_cleared Labels.ofList _ _ _ _, apply_cleared setInstant _ _ _ _,
    apply_cleared setInstant _ _ _ _, rfl⟩

theorem user_without {m : User} {r : StorageControl.User} (made : m.resource = .ok r)
    (id : removed ≠ "id") (version : removed ≠ "version") :
    (m.without removed).resource = .ok (r.without removed) := by
  obtain ⟨_, idThere, made⟩ := of_bind_ok made
  obtain ⟨_, versionThere, made⟩ := of_bind_ok made
  cases made
  simp only [User.resource, User.without, cleared_of_ne id, cleared_of_ne version, idThere,
    versionThere, StorageControl.User.without]
  refine congrArg Except.ok ?_
  rw [StorageControl.User.mk.injEq]
  exact ⟨rfl, rfl, rfl, apply_cleared (List.filterMap Id.ofText?) _ _ _ _,
    apply_cleared setInstant _ _ _ _, apply_cleared setInstant _ _ _ _, rfl⟩

theorem deployment_without {m : Deployment} {r : StorageControl.Deployment}
    (made : m.resource = .ok r) (id : removed ≠ "id") (node : removed ≠ "nodeID") :
    (m.without removed).resource = .ok (r.without removed) := by
  obtain ⟨_, idThere, made⟩ := of_bind_ok made
  obtain ⟨_, nodeThere, made⟩ := of_bind_ok made
  cases made
  simp only [Deployment.resource, Deployment.without, cleared_of_ne id, cleared_of_ne node, idThere,
    nodeThere, StorageControl.Deployment.without]
  refine congrArg Except.ok ?_
  rw [StorageControl.Deployment.mk.injEq]
  exact ⟨rfl, rfl, rfl, apply_cleared Health.ofName _ _ _ _, rfl⟩

theorem volume_without {m : Volume} {r : StorageControl.Volume} (made : m.resource = .ok r)
    (id : removed ≠ "id") (scope : removed ≠ "namespaceID") (version : removed ≠ "version") :
    (m.without removed).resource = .ok (r.without removed) := by
  rw [Volume.resource_eq] at made ⊢
  obtain ⟨_, masterThere, made⟩ := of_bind_ok made
  obtain ⟨_, replicasThere, made⟩ := of_bind_ok made
  obtain ⟨_, idThere, made⟩ := of_bind_ok made
  obtain ⟨_, scopeThere, made⟩ := of_bind_ok made
  obtain ⟨_, versionThere, made⟩ := of_bind_ok made
  cases made
  have master := cleared_ok masterOf none rfl masterThere removed "master"
  have replicas := cleared_ok (fun copies => all Deployment.resource (copies.getD [])) none rfl
    replicasThere removed "replicas"
  simp only [Volume.without, cleared_of_ne id, cleared_of_ne scope, cleared_of_ne version, master,
    replicas, idThere, scopeThere, versionThere, StorageControl.Volume.without]
  refine congrArg Except.ok ?_
  rw [StorageControl.Volume.mk.injEq]
  exact ⟨rfl, rfl, rfl, rfl, rfl, apply_cleared Id.ofText? _ _ _ _,
    apply_cleared Labels.ofList _ _ _ _, apply_cleared Filesystem.ofName _ _ _ _, rfl, rfl, rfl,
    apply_cleared setInstant _ _ _ _, apply_cleared setInstant _ _ _ _, rfl⟩

/-! ### Resources with a change inside -/

theorem cluster_of_licence {m : Cluster} {r : StorageControl.Cluster} (made : m.resource = .ok r)
    {change : Licence → Licence} {change' : StorageControl.Licence → StorageControl.Licence}
    (changes : ∀ l, (change l).resource = change' l.resource) :
    Cluster.resource { m with licence := change m.licence } =
      .ok { r with licence := change' r.licence } := by
  obtain ⟨_, idThere, made⟩ := of_bind_ok made
  obtain ⟨_, versionThere, made⟩ := of_bind_ok made
  cases made
  have licence := changes m.licence
  simp only [Cluster.resource, idThere, versionThere]
  refine congrArg Except.ok ?_
  rw [StorageControl.Cluster.mk.injEq]
  exact ⟨rfl, licence, rfl, rfl, rfl, rfl, rfl, rfl, rfl, rfl⟩

section Copies

variable {change : Deployment → Deployment}
  {change' : StorageControl.Deployment → StorageControl.Deployment}
  (changes : ∀ d r, d.resource = .ok r → (change d).resource = .ok (change' r))
include changes

theorem masterOf_map {master : Option Deployment} {r : Option StorageControl.Deployment}
    (made : masterOf master = .ok r) : masterOf (master.map change) = .ok (r.map change') := by
  cases master with
  | none =>
    cases made
    rfl
  | some d =>
    rw [masterOf, map_eq_pure_bind] at made
    obtain ⟨copy, copied, same⟩ := of_bind_ok made
    cases same
    rw [Option.map_some, masterOf, changes d copy copied]
    rfl

theorem all_modify {copies : List Deployment} {rs : List StorageControl.Deployment}
    (made : all Deployment.resource copies = .ok rs) (index : Nat) :
    all Deployment.resource (copies.modify index change) = .ok (rs.modify index change') := by
  induction copies generalizing rs index with
  | nil =>
    cases made
    cases index <;> rfl
  | cons d rest ih =>
    obtain ⟨r, here, made⟩ := of_bind_ok made
    obtain ⟨more, later, made⟩ := of_bind_ok made
    cases made
    cases index with
    | zero =>
      rw [List.modify_zero_cons, List.modify_zero_cons, all, changes d r here, later]
      rfl
    | succ index =>
      rw [List.modify_succ_cons, List.modify_succ_cons, all, here, ih later]
      rfl

theorem volume_of_master {m : Volume} {r : StorageControl.Volume} (made : m.resource = .ok r) :
    Volume.resource { m with master := m.master.map change } =
      .ok { r with master := r.master.map change' } := by
  rw [Volume.resource_eq] at made ⊢
  obtain ⟨master, masterThere, made⟩ := of_bind_ok made
  obtain ⟨_, replicasThere, made⟩ := of_bind_ok made
  obtain ⟨_, idThere, made⟩ := of_bind_ok made
  obtain ⟨_, scopeThere, made⟩ := of_bind_ok made
  obtain ⟨_, versionThere, made⟩ := of_bind_ok made
  cases made
  simp only [masterOf_map changes masterThere, replicasThere, idThere, scopeThere, versionThere]
  rfl

theorem volume_of_replica {m : Volume} {r : StorageControl.Volume} (made : m.resource = .ok r)
    (index : Nat) :
    Volume.resource { m with replicas := m.replicas.map (·.modify index change) } =
      .ok { r with replicas := r.replicas.modify index change' } := by
  rw [Volume.resource_eq] at made ⊢
  obtain ⟨_, masterThere, made⟩ := of_bind_ok made
  obtain ⟨replicas, replicasThere, made⟩ := of_bind_ok made
  obtain ⟨_, idThere, made⟩ := of_bind_ok made
  obtain ⟨_, scopeThere, made⟩ := of_bind_ok made
  obtain ⟨_, versionThere, made⟩ := of_bind_ok made
  cases made
  have copies : (m.replicas.map (·.modify index change)).getD [] =
      (m.replicas.getD []).modify index change := by
    cases m.replicas with
    | none => cases index <;> rfl
    | some copies => rfl
  simp only [masterThere, copies, all_modify changes replicasThere, idThere, scopeThere,
    versionThere]
  rfl

end Copies

end Resources

/-! ### Texts -/

section Texts

variable {M R : Type} {decode : Decoder M} {resource : M → Except TransportFault R}

theorem readRunes_written (w : Written) : Json.readRunes decode w.runes = decode w.tree := by
  rw [Json.readRunes, Json.ofRunes_written]
  cases decode w.tree <;> rfl

/-- An edit that model and resource follow is an edit of what a text is read as. -/
theorem read_of_carries {edit : Tree → Tree → Prop} {change : M → M} {change' : R → R}
    (carries : Decoder.Carries decode edit change)
    (changes : ∀ m r, resource m = .ok r → resource (change m) = .ok (change' r))
    {w w' : Written} (edited : edit w.tree w'.tree) {r : R}
    (held : read decode resource w.runes = .ok r) :
    read decode resource w'.runes = .ok (change' r) := by
  rw [read, readRunes_written] at held ⊢
  split at held
  next m decoded =>
    rw [carries _ _ m edited decoded]
    exact changes m r held
  next => cases held

end Texts

end Wire

/-! ### Answers -/

/-- The objects in an answer that have members of a resource or of a part of one. -/
inductive Part where
  | whole
  | licence
  | master
  | replica (index : Nat)
  deriving DecidableEq, Repr

/-- An edit of the object that is that part of an answer. -/
def Part.Edits (edit : Json.Tree → Json.Tree → Prop) : Part → Json.Tree → Json.Tree → Prop
  | whole => edit
  | licence => Json.Tree.Within "licence" edit
  | master => Json.Tree.Within "master" edit
  | replica index => Json.Tree.Within "replicas" (Json.Tree.AtItem index edit)

namespace ResourceKind

def Resource : ResourceKind → Type
  | cluster => Cluster
  | node => Node
  | nspace => Namespace
  | user => User
  | volume => Volume

/-- Read an answer with one resource. -/
def read : (kind : ResourceKind) → List Text.Rune → Except TransportFault kind.Resource
  | cluster => Wire.read Wire.toCluster Wire.Cluster.resource
  | node => Wire.read Wire.toNode Wire.Node.resource
  | nspace => Wire.read Wire.toNamespace Wire.Namespace.resource
  | user => Wire.read Wire.toUser Wire.User.resource
  | volume => Wire.read Wire.toVolume Wire.Volume.resource

/-- The names of the members that are known in a part, if answers of this kind have it. -/
def fieldsAt? : ResourceKind → Part → Option (List String)
  | cluster, .whole => some (Wire.cluster.fields.map Json.Field.name)
  | cluster, .licence => some (Wire.licence.fields.map Json.Field.name)
  | node, .whole => some (Wire.node.fields.map Json.Field.name)
  | nspace, .whole => some (Wire.scope.fields.map Json.Field.name)
  | user, .whole => some (Wire.user.fields.map Json.Field.name)
  | volume, .whole => some (Wire.volume.fields.map Json.Field.name)
  | volume, .master | volume, .replica _ => some (Wire.deployment.fields.map Json.Field.name)
  | _, _ => none

/-- The members that a resource cannot do without. -/
def neededAt : ResourceKind → Part → List String
  | volume, .whole => ["id", "namespaceID", "version"]
  | _, .whole => ["id", "version"]
  | _, .licence => []
  | _, .master | _, .replica _ => ["id", "nodeID"]

/-- The resource with one field of a part empty. -/
def without : (kind : ResourceKind) → Part → String → kind.Resource → kind.Resource
  | cluster, .whole, name, r => Cluster.without name r
  | cluster, .licence, name, (r : Cluster) => ({ r with licence := r.licence.without name } : Cluster)
  | node, .whole, name, r => Node.without name r
  | nspace, .whole, name, r => Namespace.without name r
  | user, .whole, name, r => User.without name r
  | volume, .whole, name, r => Volume.without name r
  | volume, .master, name, (r : Volume) =>
    ({ r with master := r.master.map (Deployment.without name) } : Volume)
  | volume, .replica index, name, (r : Volume) =>
    ({ r with replicas := r.replicas.modify index (Deployment.without name) } : Volume)
  | _, _, _, r => r

end ResourceKind

namespace Wire

open Json (Record Tree Written)
open Json.Record (decode_fields of_seq_build)

theorem gains_nested {names : List String} {t t' : Tree} (gains : t.Gains names t') :
    t.IsNested ∧ t'.IsNested := by
  obtain ⟨_, _, _, _, _, -, -, rfl, rfl⟩ := gains
  exact ⟨trivial, trivial⟩

theorem loses_nested {name : String} {t t' : Tree} (loses : t.Loses name t') :
    t.IsNested ∧ t'.IsNested := by
  obtain ⟨_, _, _, _, -, rfl, rfl⟩ := loses
  exact ⟨trivial, trivial⟩

/-- A member that is not known changes nothing, in whatever part it is. -/
theorem read_newer {kind : ResourceKind} {part : Part} {fields : List String}
    (known : kind.fieldsAt? part = some fields) {w w' : Written} {r : kind.Resource}
    (held : kind.read w.runes = .ok r) (edited : part.Edits (Tree.Gains fields) w.tree w'.tree) :
    kind.read w'.runes = .ok r := by
  have same {M R : Type} {resource : M → Except TransportFault R} (m : M) (r : R)
      (made : resource m = .ok r) : resource (id m) = .ok (id r) := made
  cases kind <;> cases part <;> cases known
  case cluster.whole | node.whole | nspace.whole | user.whole | volume.whole =>
    exact read_of_carries (Json.Record.decode_gains _ _ _) same edited held
  case cluster.licence =>
    exact read_of_carries (cluster_within (Json.Record.decode_gains licence _ _))
      (fun m r made => made) edited held
  case volume.master =>
    have carries := volume_within_master (Json.Record.decode_gains deployment _ _)
      fun _ _ => gains_nested
    have read := read_of_carries carries (fun m r made => volume_of_master same made) edited held
    rw [Option.map_id] at read
    exact read
  case volume.replica index =>
    have carries := volume_within_replica (Json.Record.decode_gains deployment _ _) index
    have read := read_of_carries carries
      (fun m r made => volume_of_replica same made index) edited held
    rw [List.modify_id] at read
    exact read

/-- Without a member that is not needed the resource is without that field. -/
theorem read_sparser {kind : ResourceKind} {part : Part} {fields : List String}
    (known : kind.fieldsAt? part = some fields) {w w' : Written} {r : kind.Resource}
    (held : kind.read w.runes = .ok r) {name : String} (spare : name ∉ kind.neededAt part)
    (edited : part.Edits (Tree.Loses name) w.tree w'.tree) :
    kind.read w'.runes = .ok (kind.without part name r) := by
  cases kind <;> cases part <;> cases known
  all_goals
    simp only [ResourceKind.neededAt, List.mem_cons, List.not_mem_nil, or_false, not_or,
      not_false_eq_true] at spare
  case cluster.whole =>
    exact read_of_carries (cluster_loses name)
      (fun m r made => cluster_without made spare.1 spare.2) edited held
  case cluster.licence =>
    have changes (l : Licence) : (l.without name).resource = l.resource.without name :=
      licence_without l
    have follows (m : Cluster) (r : StorageControl.Cluster) (made : m.resource = .ok r) :=
      cluster_of_licence made changes
    exact read_of_carries (cluster_within (licence_loses name)) follows edited held
  case node.whole =>
    exact read_of_carries (node_loses name)
      (fun m r made => node_without made spare.1 spare.2) edited held
  case nspace.whole =>
    exact read_of_carries (namespace_loses name)
      (fun m r made => namespace_without made spare.1 spare.2) edited held
  case user.whole =>
    exact read_of_carries (user_loses name)
      (fun m r made => user_without made spare.1 spare.2) edited held
  case volume.whole =>
    exact read_of_carries (volume_loses name)
      (fun m r made => volume_without made spare.1 spare.2.1 spare.2.2) edited held
  case volume.master =>
    have copies (d : Deployment) (r : StorageControl.Deployment) (made : d.resource = .ok r) :=
      deployment_without made spare.1 spare.2
    exact read_of_carries (volume_within_master (deployment_loses name) fun _ _ => loses_nested)
      (fun m r made => volume_of_master copies made) edited held
  case volume.replica index =>
    have copies (d : Deployment) (r : StorageControl.Deployment) (made : d.resource = .ok r) :=
      deployment_without made spare.1 spare.2
    exact read_of_carries (volume_within_replica (deployment_loses name) index)
      (fun m r made => volume_of_replica copies made index) edited held

/-- The text of an object's only member of a name; it is empty where there is none. -/
def textAt (name : String) (t : Tree) : String := ((t.only? name).bind Tree.text?).getD ""

/-- A property of what is built, shown from the fields it is built of. -/
theorem of_seq_built {α β : Type} {f : Record (α → β)} {x : Record α} {find : String → Option Tree}
    {holds : β → Prop}
    (parts : ∀ g, f.build find = .ok g → ∀ a, x.build find = .ok a → holds (g a)) (b : β)
    (built : (f.seq x).build find = .ok b) : holds b := by
  obtain ⟨g, a, first, second, rfl⟩ := of_seq_build built
  exact parts g first a second

/-- The addresses of a node are those in its document. -/
theorem endpoints_of_toNode {members : List (Json.Quoted × Tree)} {close : Json.Close} (m : Node)
    (decoded : toNode (.object members close) = .ok m) :
    m.ioEndpoint = textAt "ioEndpoint" (.object members close) ∧
      m.supervisorEndpoint = textAt "supervisorEndpoint" (.object members close) ∧
      m.gossipEndpoint = textAt "gossipEndpoint" (.object members close) ∧
      m.clusteringEndpoint = textAt "clusteringEndpoint" (.object members close) := by
  obtain ⟨find, built, fields⟩ := decode_fields decoded
  have text_at {name text : String} (known : (Json.Record.lookup node.fields name).isSome = true)
      (here : (textField name).build find = .ok text) :
      text = textAt name (.object members close) := by
    rw [← getD_of_textField here, fields name known]
    rfl
  clear decoded
  revert m built
  iterate 11 refine of_seq_built ?_
  rintro _ ⟨⟩ _ - _ - _ - io ioHere supervisor supervisorHere gossip gossipHere clustering
    clusteringHere _ - _ - _ - _ -
  exact ⟨text_at rfl ioHere, text_at rfl supervisorHere, text_at rfl gossipHere,
    text_at rfl clusteringHere⟩

theorem configuration_eq_none_iff (m : Node) : m.configuration = none ↔
    m.ioEndpoint = "" ∧ m.supervisorEndpoint = "" ∧ m.gossipEndpoint = "" ∧
      m.clusteringEndpoint = "" := by
  simp [Node.configuration]

theorem configuration_of_read {w : Written} {members : List (Json.Quoted × Tree)}
    {close : Json.Close} (object : w.tree = .object members close) {n : StorageControl.Node}
    (held : read toNode Node.resource w.runes = .ok n) : n.configuration = none ↔
      ∀ name ∈ ["ioEndpoint", "supervisorEndpoint", "gossipEndpoint", "clusteringEndpoint"],
        textAt name w.tree = "" := by
  rw [read, readRunes_written, object] at held
  split at held
  next m decoded =>
    obtain ⟨_, -, made⟩ := of_bind_ok held
    obtain ⟨_, -, made⟩ := of_bind_ok made
    cases made
    obtain ⟨io, supervisor, gossip, clustering⟩ := endpoints_of_toNode m decoded
    simp only [configuration_eq_none_iff, io, supervisor, gossip, clustering, object,
      List.forall_mem_cons, List.not_mem_nil, false_implies, implies_true, and_true]
  next => cases held

/-- An answer that reads as a resource reads as the same one with a member more that is
not known, and as that resource without a field with a member less that is not needed, at
the top and in every object inside. A node has a configuration unless all its addresses
are empty. -/
theorem read_sparse_or_newer :
    (∀ (kind : ResourceKind) (part : Part) (fields : List String) (w w' : Written)
        (r : kind.Resource),
      kind.fieldsAt? part = some fields → kind.read w.runes = .ok r →
      (part.Edits (Tree.Gains fields) w.tree w'.tree → kind.read w'.runes = .ok r) ∧
      ∀ name ∉ kind.neededAt part, part.Edits (Tree.Loses name) w.tree w'.tree →
        kind.read w'.runes = .ok (kind.without part name r)) ∧
    ∀ (w : Written) (members : List (Json.Quoted × Tree)) (n : StorageControl.Node),
      w.tree = .object members .closed → ResourceKind.node.read w.runes = .ok n →
      (n.configuration = none ↔
        ∀ name ∈ ["ioEndpoint", "supervisorEndpoint", "gossipEndpoint", "clusteringEndpoint"],
          textAt name w.tree = "") := by
  constructor
  · intro kind part fields w w' r known held
    exact ⟨read_newer known held, fun name spare => read_sparser known held spare⟩
  · intro w members n object held
    exact configuration_of_read object held

/-- A string whose characters all stand for themselves. -/
def plain (text : String)
    (solid : ∀ c ∈ text.toList, c ≠ '"' ∧ c ≠ '\\' ∧ 0x20 ≤ c.toNat := by simp) :
    List Json.Letter :=
  text.toList.pmap Json.Letter.plain solid

/-- A replica with a member from a newer server is read as if it were not there, and one
that does not say whether it is syncing as one that is not. -/
theorem read_sparse_or_newer_replica :
    let member (key : List Json.Letter) (value : Written) : Json.Key × Written :=
      (⟨.none, key, .none⟩, value)
    let text (more : List (Json.Key × Written)) : Written := .object .none [
      member (plain "id") (.string (plain "v")),
      member (plain "namespaceID") (.string (plain "n")),
      member (plain "version") (.string (plain "1")),
      member (plain "replicas") (.list .none [.object .none
        (member (plain "id") (.string (plain "d")) ::
          (more ++ [member (plain "nodeID") (.string (plain "a"))]))])]
    let syncing := member (plain "syncing") (.boolean true)
    let zone := member (plain "zone") (.list .none [.null, .object .none [syncing, syncing]])
    ∃ r : StorageControl.Volume, ResourceKind.volume.read (text [syncing]).runes = .ok r ∧
      r.replicas.map (·.syncing) = [true] ∧
      ResourceKind.volume.read (text [zone, syncing]).runes = .ok r ∧
      ResourceKind.volume.read (text []).runes =
        .ok { r with replicas := r.replicas.modify 0 (StorageControl.Deployment.without "syncing") } := by
  intro member text syncing zone
  let r : StorageControl.Volume := {
    id := ⟨⟨"v", by decide⟩⟩, name := "", description := "", sizeBytes := 0
    scope := ⟨⟨"n", by decide⟩⟩, attachedOn := none, labels := .empty, filesystem := .unknown
    inode := 0, master := none
    replicas := [⟨⟨⟨"d", by decide⟩⟩, ⟨⟨"a", by decide⟩⟩, 0, .unknown, true⟩]
    createdAt := none, updatedAt := none, version := ⟨⟨"1", by decide⟩⟩ }
  have held : ResourceKind.volume.read (text [syncing]).runes = .ok r := by rfl
  have newer := (read_sparse_or_newer.1 .volume (.replica 0) _ (text [syncing])
    (text [zone, syncing]) r rfl held).1
  have sparser := (read_sparse_or_newer.1 .volume (.replica 0) _ (text [syncing])
    (text []) r rfl held).2 "syncing" (by decide)
  refine ⟨r, held, rfl, newer ?_, sparser ?_⟩
  · refine ⟨[_, _, _], [], _, _, _, rfl, ⟨[], [], _, _, rfl, ?_, rfl, rfl⟩, rfl, rfl⟩
    exact ⟨[_], [_, _], _, "zone", zone.2, rfl, by decide, rfl, rfl⟩
  · refine ⟨[_, _, _], [], _, _, _, rfl, ⟨[], [], _, _, rfl, ?_, rfl, rfl⟩, rfl, rfl⟩
    exact ⟨[_], [_], _, _, rfl, rfl, rfl⟩

end Wire

end StorageControl
