import StorageControl.Client
import StorageControl.Command
import StorageControl.Command.Argument
import StorageControl.Document.Writer

/-! What each command does.

A command is a procedure of client operations, each with a deadline of its own. Names are
resolved to identifiers first, in the namespace before the volume; a change is the last
operation of its command. What a command brings is a document, or nothing.
-/

set_option autoImplicit false

namespace StorageControl

open StorageControl.Json (Value)

inductive Procedure (α : Type) : Type 1 where
  | done (result : Except Failure α)
  | perform {β : Type} (operation : Operation β) (next : Except ApiFault β → Procedure α)

namespace Procedure

variable {σ α β : Type}

/-- Perform an operation and go on with its result; a fault ends the procedure. -/
def ask (operation : Operation β) (next : β → Procedure α) : Procedure α :=
  .perform operation fun
    | .ok b => next b
    | .error fault => .done (.error (.of (.api fault)))

def askWithin (activity : String) (operation : Operation β) (next : β → Procedure α) :
    Procedure α :=
  .perform operation fun
    | .ok b => next b
    | .error fault => .done (.error (.within activity (.of (.api fault))))

def check (argument : Except ConfigFault β) (next : β → Procedure α) : Procedure α :=
  match argument with
  | .ok b => next b
  | .error fault => .done (.error (.of (.config fault)))

def print (operation : Operation β) (write : β → Value) : Procedure (Option Value) :=
  ask operation fun b => .done (.ok (some (write b)))

def quiet (operation : Operation Unit) : Procedure (Option Value) :=
  ask operation fun _ => .done (.ok none)

/-- Carry out a procedure; there is no result when an operation waits for ever. -/
def run (client : Client) (T : Transport σ) :
    Procedure α → Machine σ → Option (Except Failure α) × Machine σ
  | done result, m => (some result, m)
  | perform operation next, m =>
    match client.perform T operation m with
    | (some result, m) => run client T (next result) m
    | (none, m) => (none, m)

end Procedure

namespace Options

open Procedure (ask askWithin check)

variable {α : Type}

def withNamespace (o : Options) (argument : String) (next : NamespaceId → Procedure α) :
    Procedure α :=
  if o.useIds then check (Argument.id "namespace" argument) next
  else ask (.getNamespaceByName argument) fun scope => next scope.id

def withScope (o : Options) (next : NamespaceId → Procedure α) : Procedure α :=
  check o.requiredScope fun argument => o.withNamespace argument next

def withVolume (o : Options) (scope : NamespaceId) (argument : String)
    (next : VolumeId → Procedure α) : Procedure α :=
  if o.useIds then check (Argument.id "volume" argument) next
  else
    askWithin ("resolving volume " ++ argument) (.getVolumeByName scope argument) fun volume =>
      next volume.id

def withUser (o : Options) (argument : String) (next : UserId → Procedure α) : Procedure α :=
  if o.useIds then check (Argument.id "user" argument) next
  else ask (.getUserByName argument) fun user => next user.id

end Options

namespace Command

open Procedure (ask check print quiet)
open StorageControl.Document

def nodesProcedure (o : Options) (names : List String) : Procedure (Option Value) :=
  if o.useIds then
    check (Argument.ids "node" names) fun ids => print (.getNodes ids) (ofList ofNode)
  else print (.getNodesByName names) (ofList ofNode)

def namespacesProcedure (o : Options) (names : List String) : Procedure (Option Value) :=
  if o.useIds then
    check (Argument.ids "namespace" names) fun ids =>
      print (.getNamespaces ids) (ofList ofNamespace)
  else print (.getNamespacesByName names) (ofList ofNamespace)

def usersProcedure (o : Options) (names : List String) : Procedure (Option Value) :=
  if o.useIds then
    check (Argument.ids "user" names) fun ids => print (.getUsers ids) (ofList ofUser)
  else print (.getUsersByName names) (ofList ofUser)

/-- Volumes of the namespace that is given, or of all namespaces. -/
def volumesProcedure (o : Options) (names : List String) : Procedure (Option Value) :=
  match o.scope with
  | none =>
    if o.useIds then
      check (Argument.ids "volume" names) fun ids =>
        print (.getAllVolumes o.policy ids) (ofList ofVolume)
    else print (.getAllVolumesByName o.policy names) (ofList ofVolume)
  | some argument =>
    o.withNamespace argument fun scope =>
      if o.useIds then
        check (Argument.ids "volume" names) fun ids =>
          print (.getNamespaceVolumes scope ids) (ofList ofVolume)
      else print (.getNamespaceVolumesByName scope names) (ofList ofVolume)

def procedure (o : Options) : Command → Procedure (Option Value)
  | getCluster => print .getCluster ofCluster
  | getNode name =>
    if o.useIds then check (Argument.id "node" name) fun id => print (.getNode id) ofNode
    else print (.getNodeByName name) ofNode
  | getNodes names => nodesProcedure o names
  | getNamespace name =>
    if o.useIds then
      check (Argument.id "namespace" name) fun id => print (.getNamespace id) ofNamespace
    else print (.getNamespaceByName name) ofNamespace
  | getNamespaces names => namespacesProcedure o names
  | getUser name =>
    if o.useIds then check (Argument.id "user" name) fun id => print (.getUser id) ofUser
    else print (.getUserByName name) ofUser
  | getUsers names => usersProcedure o names
  | getVolume name =>
    o.withScope fun scope =>
      if o.useIds then
        check (Argument.id "volume" name) fun id => print (.getVolume scope id) ofVolume
      else print (.getVolumeByName scope name) ofVolume
  | getVolumes names => volumesProcedure o names
  | createVolume name description sizeBytes filesystem labels asyncMax =>
    check (Argument.labels labels) fun labels =>
      o.withScope fun scope =>
        print (.createVolume scope { name, description, sizeBytes, filesystem, labels } asyncMax)
          ofVolume
  | createNamespace name labels =>
    check (Argument.labels labels) fun labels =>
      print (.createNamespace { name, labels }) ofNamespace
  | createUser username password isAdmin groups =>
    check (Argument.ids "policy group" groups) fun groups =>
      print (.createUser { username, password, isAdmin, groups }) ofUser
  | deleteVolume name version asyncMax =>
    check (Argument.constraint version) fun constraint =>
      o.withScope fun scope =>
        o.withVolume scope name fun id =>
          quiet (.deleteVolume scope id constraint asyncMax)
  | deleteNamespace name version =>
    check (Argument.constraint version) fun constraint =>
      o.withNamespace name fun id => quiet (.deleteNamespace id constraint)
  | deleteUser username version =>
    check (Argument.constraint version) fun constraint =>
      o.withUser username fun id => quiet (.deleteUser id constraint)
  | setReplicas name replicas version =>
    check (Argument.constraint version) fun constraint =>
      o.withScope fun scope =>
        o.withVolume scope name fun id =>
          print (.setReplicas scope id replicas constraint) ofVolume
  | detachVolume name version =>
    check (Argument.constraint version) fun constraint =>
      o.withScope fun scope =>
        o.withVolume scope name fun id => quiet (.detachVolume scope id constraint)

end Command

namespace Invocation

def procedure (i : Invocation) : Procedure (Option Value) :=
  .askWithin ("authenticating as " ++ i.options.username)
    (.authenticate i.options.username i.options.password) fun _ => i.command.procedure i.options

def client (i : Invocation) : Client := ⟨some i.options.timeout, i.options.policy⟩

end Invocation

end StorageControl
