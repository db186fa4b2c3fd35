/-! Attributes with a fixed set of values.

A value that the client does not know reads as `unknown`, so a newer server does not
break an older client.
-/

set_option autoImplicit false

namespace StorageControl

inductive Health where
  | online
  | offline
  | syncing
  | ready
  | unknown
  deriving DecidableEq, Repr

instance : Inhabited Health := ⟨.unknown⟩

def Health.name : Health → String
  | .online => "online"
  | .offline => "offline"
  | .syncing => "syncing"
  | .ready => "ready"
  | .unknown => "unknown"

def Health.all : List Health := [.online, .offline, .syncing, .ready, .unknown]

def Health.ofName (name : String) : Health := (Health.all.find? (·.name == name)).getD .unknown

/-- The filesystem of a volume; `block` is a raw device. -/
inductive Filesystem where
  | ext4
  | xfs
  | btrfs
  | block
  | unknown
  deriving DecidableEq, Repr

instance : Inhabited Filesystem := ⟨.unknown⟩

def Filesystem.name : Filesystem → String
  | .ext4 => "ext4"
  | .xfs => "xfs"
  | .btrfs => "btrfs"
  | .block => "block"
  | .unknown => "unknown"

def Filesystem.all : List Filesystem := [.ext4, .xfs, .btrfs, .block, .unknown]

def Filesystem.ofName (name : String) : Filesystem :=
  (Filesystem.all.find? (·.name == name)).getD .unknown

/-- The name sent to the server; an unknown filesystem is not sent. -/
def Filesystem.sent? : Filesystem → Option String
  | .unknown => none
  | fs => some fs.name

inductive LogLevel where
  | debug
  | info
  | warn
  | error
  | unknown
  deriving DecidableEq, Repr

instance : Inhabited LogLevel := ⟨.unknown⟩

def LogLevel.name : LogLevel → String
  | .debug => "debug"
  | .info => "info"
  | .warn => "warn"
  | .error => "error"
  | .unknown => "unknown"

def LogLevel.all : List LogLevel := [.debug, .info, .warn, .error, .unknown]

def LogLevel.ofName (name : String) : LogLevel :=
  (LogLevel.all.find? (·.name == name)).getD .unknown

inductive LogFormat where
  | standard
  | json
  | unknown
  deriving DecidableEq, Repr

instance : Inhabited LogFormat := ⟨.unknown⟩

def LogFormat.name : LogFormat → String
  | .standard => "default"
  | .json => "json"
  | .unknown => "unknown"

def LogFormat.all : List LogFormat := [.standard, .json, .unknown]

def LogFormat.ofName (name : String) : LogFormat :=
  (LogFormat.all.find? (·.name == name)).getD .unknown

end StorageControl
