import StorageControl.Call

/-! A server in memory.

The world keeps resources, passwords and the stored credential, and answers calls the way
the server does: a change names the version it expects and is refused when the stored
one differs. Chosen calls can be made slow or made to fail. Every call is recorded when
it starts and takes effect when it lands.
-/

set_option autoImplicit false

namespace StorageControl

/-- Which calls a rule is about: those of one name, and of one target if it has one. -/
structure CallPattern where
  call : String
  target : Option String
  deriving DecidableEq, Repr

def CallPattern.covers (p : CallPattern) (c : Call) : Bool :=
  p.call == c.name && (p.target.isNone || p.target == c.target?)

structure PlannedFault where
  pattern : CallPattern
  times : Option Nat
  fault : TransportFault
  deriving DecidableEq, Repr

structure PlannedDelay where
  pattern : CallPattern
  milliseconds : Nat
  deriving DecidableEq, Repr

structure World where
  cluster : Option Cluster
  nodes : List Node
  namespaces : List Namespace
  users : List User
  volumes : List Volume
  passwords : List (String × String)
  requireLogin : Bool
  /-- Whether reading a resource that has a scope or an owner gives it a new version. -/
  bumpOnRead : Bool
  faults : List PlannedFault
  delays : List PlannedDelay
  credential : Option Credential
  created : Nat
  calls : List Call
  /-- The namespaces whose listing has landed, in order. -/
  completed : List NamespaceId

namespace World

def empty : World :=
  ⟨none, [], [], [], [], [], false, false, [], [], none, 0, [], []⟩

def refuse {α : Type} (status : Nat) (error : String) : Except TransportFault α :=
  .error (.response status (.structured error))

def next (v : Version) : Version :=
  (Version.ofText? (v.text ++ "+")).getD v

def updateFirst {α : Type} (fits : α → Bool) (change : α → α) : List α → List α
  | [] => []
  | a :: rest => if fits a then change a :: rest else a :: updateFirst fits change rest

def Volume.isAt (scope : NamespaceId) (id : VolumeId) (v : Volume) : Bool :=
  v.scope == scope && v.id == id

def volume? (w : World) (scope : NamespaceId) (id : VolumeId) : Option Volume :=
  w.volumes.find? (Volume.isAt scope id)

def namespace? (w : World) (id : NamespaceId) : Option Namespace :=
  w.namespaces.find? (·.id == id)

def user? (w : World) (id : UserId) : Option User := w.users.find? (·.id == id)

def bumpVolume (w : World) (scope : NamespaceId) (id : VolumeId) : World :=
  { w with
    volumes := updateFirst (Volume.isAt scope id)
      (fun v => { v with version := next v.version }) w.volumes }

def bumpNamespace (w : World) (id : NamespaceId) : World :=
  { w with
    namespaces := updateFirst (·.id == id)
      (fun n => { n with version := next n.version }) w.namespaces }

def bumpUser (w : World) (id : UserId) : World :=
  { w with users := updateFirst (·.id == id) (fun u => { u with version := next u.version }) w.users }

def newId {subject : Subject} (w : World) : Id subject :=
  ⟨⟨"new-" ++ toString (w.created + 1), by simp⟩⟩

def firstVersion : Version := ⟨⟨"1", by decide⟩⟩

/-- Look at the stored version of a resource before changing it. -/
def checked {α R : Type} (found : Option R) (version : R → Version) (missing : String)
    (presented : Version) (w : World) (change : R → Except TransportFault α × World) :
    Except TransportFault α × World :=
  match found with
  | none => (refuse 404 missing, w)
  | some r => if version r = presented then change r else (refuse 412 "version mismatch", w)

def login (w : World) (username password : String) : Except TransportFault User × World :=
  match (w.passwords.find? (·.1 == username)).map (·.2) with
  | none => (refuse 401 "invalid credentials", w)
  | some stored =>
    if stored ≠ password then (refuse 401 "invalid credentials", w)
    else match w.users.find? (·.username == username) with
      | none => (refuse 404 "user not found", w)
      | some user => (.ok user, { w with credential := Credential.ofText? ("token-for-" ++ username) })

def addVolume (w : World) (scope : NamespaceId) (spec : VolumeSpec) :
    Except TransportFault Volume × World :=
  if (w.namespace? scope).isNone then (refuse 404 "namespace not found", w)
  else if w.volumes.any fun v => v.scope == scope && v.name == spec.name then
    (refuse 409 "volume name already in use", w)
  else
    let volume : Volume := {
      id := w.newId, name := spec.name, description := spec.description,
      sizeBytes := spec.sizeBytes, scope, attachedOn := none, labels := spec.labels,
      filesystem := spec.filesystem, inode := 0, master := none, replicas := [],
      createdAt := none, updatedAt := none, version := firstVersion }
    (.ok volume, { w with volumes := w.volumes ++ [volume], created := w.created + 1 })

def addNamespace (w : World) (spec : NamespaceSpec) : Except TransportFault Namespace × World :=
  if w.namespaces.any (·.name == spec.name) then (refuse 409 "namespace name already in use", w)
  else
    let scope : Namespace := {
      id := w.newId, name := spec.name, labels := spec.labels,
      createdAt := none, updatedAt := none, version := firstVersion }
    (.ok scope, { w with namespaces := w.namespaces ++ [scope], created := w.created + 1 })

def addUser (w : World) (spec : UserSpec) : Except TransportFault User × World :=
  if w.users.any (·.username == spec.username) then (refuse 409 "username already in use", w)
  else
    let user : User := {
      id := w.newId, username := spec.username, isAdmin := spec.isAdmin, groups := spec.groups,
      createdAt := none, updatedAt := none, version := firstVersion }
    (.ok user, { w with
      users := w.users ++ [user]
      created := w.created + 1
      passwords := (spec.username, spec.password) ::
        w.passwords.filter (·.1 != spec.username) })

def act (w : World) : (c : Call) → c.Reply × World
  | .authenticate username password => w.login username password
  | .getCluster =>
    (match w.cluster with
      | some c => .ok c
      | none => refuse 404 "cluster not found", w)
  | .getNode id =>
    (match w.nodes.find? (·.id == id) with
      | some n => .ok n
      | none => refuse 404 "node not found", w)
  | .listNodes => (.ok w.nodes, w)
  | .getNamespace id =>
    match w.namespace? id with
    | some n => (.ok n, if w.bumpOnRead then w.bumpNamespace id else w)
    | none => (refuse 404 "namespace not found", w)
  | .listNamespaces => (.ok w.namespaces, w)
  | .getUser id =>
    match w.user? id with
    | some u => (.ok u, if w.bumpOnRead then w.bumpUser id else w)
    | none => (refuse 404 "user not found", w)
  | .listUsers => (.ok w.users, w)
  | .getVolume scope id =>
    match w.volume? scope id with
    | some v => (.ok v, if w.bumpOnRead then w.bumpVolume scope id else w)
    | none => (refuse 404 "volume not found", w)
  | .listVolumes scope => (.ok (w.volumes.filter (·.scope == scope)), w)
  | .createVolume scope spec _ => w.addVolume scope spec
  | .createNamespace spec => w.addNamespace spec
  | .createUser spec => w.addUser spec
  | .deleteVolume scope id presented _ =>
    checked (w.volume? scope id) Volume.version "volume not found" presented w fun _ =>
      (.ok (), { w with volumes := w.volumes.filter fun v => !Volume.isAt scope id v })
  | .detachVolume scope id presented =>
    checked (w.volume? scope id) Volume.version "volume not found" presented w fun v =>
      if v.attachedOn.isNone then (refuse 422 "volume is not attached", w)
      else
        (.ok (), { w with
          volumes := updateFirst (Volume.isAt scope id)
            (fun v => { v with attachedOn := none, version := next v.version }) w.volumes })
  | .setReplicas scope id replicas presented =>
    checked (w.volume? scope id) Volume.version "volume not found" presented w fun v =>
      if 5 < replicas then (refuse 400 "too many replicas", w)
      else (.ok { v with version := next v.version }, w.bumpVolume scope id)
  | .deleteNamespace id presented =>
    checked (w.namespace? id) Namespace.version "namespace not found" presented w fun _ =>
      if w.volumes.any (·.scope == id) then (refuse 409 "namespace is not empty", w)
      else (.ok (), { w with namespaces := w.namespaces.filter (·.id != id) })
  | .deleteUser id presented =>
    checked (w.user? id) User.version "user not found" presented w fun _ =>
      (.ok (), { w with users := w.users.filter (·.id != id) })

def PlannedFault.isActive (f : PlannedFault) (c : Call) : Bool :=
  f.pattern.covers c && f.times != some 0

/-- The failure planned for a call, and the plans after it. -/
def takeFault (c : Call) : List PlannedFault → Option TransportFault × List PlannedFault
  | [] => (none, [])
  | f :: rest =>
    if PlannedFault.isActive f c then
      (some f.fault, { f with times := f.times.map (· - 1) } :: rest)
    else
      let (fault, rest) := takeFault c rest
      (fault, f :: rest)

def delayOf (w : World) (c : Call) : Nat :=
  match w.delays.find? (·.pattern.covers c) with
  | some d => d.milliseconds
  | none => 0

def start (c : Call) (w : World) : Nat × World :=
  (w.delayOf c, { w with calls := w.calls ++ [c] })

def noteListing (c : Call) (w : World) : World :=
  match c with
  | .listVolumes scope => { w with completed := w.completed ++ [scope] }
  | _ => w

def needsLogin (w : World) : Call → Bool
  | .authenticate _ _ => false
  | _ => w.requireLogin && w.credential.isNone

def land (c : Call) (w : World) : Option c.Reply × World :=
  let w := noteListing c w
  if w.needsLogin c then (some (refuse 401 "not authenticated"), w)
  else
    match takeFault c w.faults with
    | (some fault, faults) => (some (.error fault), { w with faults })
    | (none, _) =>
      let (reply, w) := w.act c
      (some reply, w)

def transport : Transport World := ⟨start, land⟩

end World

end StorageControl
