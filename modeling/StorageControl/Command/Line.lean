import StorageControl.Command
import StorageControl.Command.Grammar

/-! The command line of the program. -/

set_option autoImplicit false

namespace StorageControl

open Grammar (Parameter Level Given)

namespace Invocation

/-! ### Options of every level -/

def globals : List Parameter := [
  (Parameter.list "endpoints").orVariable "STORAGEOS_ENDPOINTS",
  (Parameter.option "timeout" .span).orVariable "STORAGEOS_API_TIMEOUT",
  (Parameter.option "username" .text).orVariable "STORAGEOS_USER_NAME",
  (Parameter.option "password" .text).orVariable "STORAGEOS_PASSWORD",
  (Parameter.flag "use-ids").orVariable "STORAGEOS_USE_IDS",
  { Parameter.option "namespace" .text with
    letter := some 'n', stand := some "STORAGEOS_NAMESPACE" },
  Parameter.option "unauthorised-namespaces" (.choice ["skip", "fail"]),
  Parameter.option "log-format" (.choice ["text", "json"])]

def optionsOf (g : Given) : Options where
  endpoints := if g.has "endpoints" then g.texts "endpoints" else ["localhost:5705"]
  timeout := (g.span? "timeout").getD (Span.ofParts 5 0)
  username := (g.text? "username").getD "storageos"
  password := (g.text? "password").getD "storageos"
  useIds := g.flag "use-ids"
  scope := g.text? "namespace"
  policy := if g.text? "unauthorised-namespaces" = some "fail" then .fail else .skip
  logs := if g.text? "log-format" = some "json" then .json else .text

/-! ### Commands -/

def name : Parameter := .positional "name" .text
def names : Parameter := .series "names"
def labels : Parameter := .list "labels"
def version : Parameter := .option "cas" .text
def asyncMax : Parameter := .option "async-max" .span

def onOne (make : String → Command) : Level Command :=
  .leaf [] [name] fun g => make (g.text "name")

def onMany (make : List String → Command) : Level Command :=
  .leaf [] [names] fun g => make (g.texts "names")

/-- A change of a resource, at a version if one is given. -/
def onVersion (make : String → Option String → Command) : Level Command :=
  .leaf [version] [name] fun g => make (g.text "name") (g.text? "cas")

def getCommands : Level Command := .group [
  ("cluster", .leaf [] [] fun _ => .getCluster),
  ("node", onOne .getNode),
  ("nodes", onMany .getNodes),
  ("namespace", onOne .getNamespace),
  ("namespaces", onMany .getNamespaces),
  ("user", onOne .getUser),
  ("users", onMany .getUsers),
  ("volume", onOne .getVolume),
  ("volumes", onMany .getVolumes)]

/-- The size of a volume for which none is given: five gibibytes. -/
def defaultSize : Nat := 5 * 1024 * 1024 * 1024

def createVolumeCommand : Level Command :=
  .leaf
    [.option "description" .text, .option "size" .natural,
      .option "fs-type" (.choice ["ext4", "xfs", "btrfs", "block"]), labels, asyncMax]
    [name]
    fun g => .createVolume (g.text "name") (g.text "description")
      ((g.natural? "size").getD defaultSize)
      (Filesystem.ofName ((g.text? "fs-type").getD "ext4")) (g.texts "labels")
      (g.span? "async-max")

def newPassword : Parameter :=
  { Parameter.option "new-password" .text with
    stand := some "STORAGEOS_NEW_USER_PASSWORD", isRequired := true }

def createUserCommand : Level Command :=
  .leaf [newPassword, .flag "with-admin", .list "with-groups"] [name]
    fun g => .createUser (g.text "name") (g.text "new-password") (g.flag "with-admin")
      (g.texts "with-groups")

def createCommands : Level Command := .group [
  ("volume", createVolumeCommand),
  ("namespace", .leaf [labels] [name] fun g => .createNamespace (g.text "name") (g.texts "labels")),
  ("user", createUserCommand)]

def deleteCommands : Level Command := .group [
  ("volume", .leaf [version, asyncMax] [name]
    fun g => .deleteVolume (g.text "name") (g.text? "cas") (g.span? "async-max")),
  ("namespace", onVersion .deleteNamespace),
  ("user", onVersion .deleteUser)]

def replicasCommand : Level Command :=
  .leaf [version] [name, .positional "replicas" .natural]
    fun g => .setReplicas (g.text "name") ((g.natural? "replicas").getD 0) (g.text? "cas")

def updateCommands : Level Command := .group [
  ("volume", .group [("replicas", replicasCommand)])]

def detachCommands : Level Command := .group [("volume", onVersion .detachVolume)]

def commands : Level Command := .group [
  ("get", getCommands),
  ("create", createCommands),
  ("delete", deleteCommands),
  ("update", updateCommands),
  ("detach", detachCommands)]

def ofWords (env : Environment) (words : List String) : Except Usage Invocation :=
  match Grammar.read env globals true commands words .start with
  | .error usage => .error usage
  | .ok (levels, command) =>
    .ok ⟨optionsOf (Grammar.shared (globals.map Parameter.name) levels), command⟩

end Invocation

end StorageControl
