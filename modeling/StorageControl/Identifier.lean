/-! Names that the server gives and the client only passes on.

Identifiers, versions and credentials are texts that are never empty. An identifier
belongs to one kind of object, so that a node is never addressed where a volume is meant.
-/

set_option autoImplicit false

namespace StorageControl

structure Token where
  text : String
  nonempty : text ≠ ""
  deriving DecidableEq, Repr

def Token.ofText? (text : String) : Option Token :=
  if h : text ≠ "" then some ⟨text, h⟩ else none

theorem Token.ofText?_text (t : Token) : Token.ofText? t.text = some t := by
  simp [ofText?, t.nonempty]

theorem Token.ofText?_eq_none_iff (text : String) : Token.ofText? text = none ↔ text = "" := by
  simp [ofText?]

inductive Subject where
  | cluster
  | node
  | nspace
  | volume
  | user
  | deployment
  | policyGroup
  deriving DecidableEq, Repr

def Subject.idName : Subject → String
  | .cluster => "ClusterId"
  | .node => "NodeId"
  | .nspace => "NamespaceId"
  | .volume => "VolumeId"
  | .user => "UserId"
  | .deployment => "DeploymentId"
  | .policyGroup => "PolicyGroupId"

/-- The identifier of an object of one kind. Volumes have theirs within a namespace, all
others within the cluster. -/
structure Id (subject : Subject) where
  token : Token
  deriving DecidableEq, Repr

namespace Id

variable {subject : Subject}

def text (id : Id subject) : String := id.token.text

def ofText? (text : String) : Option (Id subject) := (Token.ofText? text).map .mk

theorem ofText?_text (id : Id subject) : ofText? id.text = some id := by
  simp [ofText?, text, Token.ofText?_text]

theorem ofText?_eq_none_iff (text : String) :
    (ofText? text : Option (Id subject)) = none ↔ text = "" := by
  simp [ofText?, Token.ofText?_eq_none_iff]

theorem text_injective {a b : Id subject} (same : a.text = b.text) : a = b := by
  have read : (ofText? a.text : Option (Id subject)) = ofText? b.text := by rw [same]
  simpa [ofText?_text] using read

end Id

def emptyMessage (name : String) : String := name ++ " must not be empty"

def Id.ofText {subject : Subject} (text : String) : Except String (Id subject) :=
  match Id.ofText? text with
  | some id => .ok id
  | none => .error (emptyMessage subject.idName)

abbrev ClusterId := Id .cluster
abbrev NodeId := Id .node
abbrev NamespaceId := Id .nspace
abbrev VolumeId := Id .volume
abbrev UserId := Id .user
abbrev DeploymentId := Id .deployment
abbrev PolicyGroupId := Id .policyGroup

/-- The state of an object at one moment, as the server names it. The client compares no
versions; it only presents one again. -/
structure Version where
  token : Token
  deriving DecidableEq, Repr

namespace Version

def text (v : Version) : String := v.token.text

def ofText? (text : String) : Option Version := (Token.ofText? text).map .mk

theorem ofText?_text (v : Version) : ofText? v.text = some v := by
  simp [ofText?, text, Token.ofText?_text]

def ofText (text : String) : Except String Version :=
  match ofText? text with
  | some v => .ok v
  | none => .error (emptyMessage "version")

end Version

structure Credential where
  token : Token
  deriving DecidableEq

namespace Credential

def text (c : Credential) : String := c.token.text

def ofText? (text : String) : Option Credential := (Token.ofText? text).map .mk

/-- What is shown of a credential: never its text. -/
def describe (_ : Credential) : String := "BearerToken(<redacted>)"

end Credential

end StorageControl
