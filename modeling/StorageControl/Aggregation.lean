import StorageControl.Fault

/-! Joining the listings of many namespaces.

The volumes of all namespaces are listed at once. What the single listings brought
arrives in some order and is joined in that order. A namespace that may not be listed is
noted and left out; any other failure ends the whole and is its result, so that no
partial list is ever taken for a whole one.
-/

set_option autoImplicit false

namespace StorageControl

/-- What to do when every namespace refuses access. -/
inductive ScopePolicy where
  | skip
  | fail
  deriving DecidableEq, Repr

def ScopePolicy.name : ScopePolicy → String
  | .skip => "skip"
  | .fail => "fail"

inductive ScopeOutcome (α : Type) where
  | listed (items : List α)
  | denied
  | failed (fault : ApiFault)
  | cancelled

structure Arrival (α : Type) where
  scope : NamespaceId
  outcome : ScopeOutcome α

variable {α : Type}

/-- Only a refusal of access is a denial. -/
def ScopeOutcome.ofReply : Except TransportFault (List α) → ScopeOutcome α
  | .ok items => .listed items
  | .error fault =>
    match fault.sort with
    | .refused .unauthorised _ => .denied
    | other => .failed other

def ScopeOutcome.isFinal : ScopeOutcome α → Bool
  | .listed _ | .denied => false
  | .failed _ | .cancelled => true

structure Aggregation (α : Type) where
  items : List α
  denied : List NamespaceId

namespace Aggregation

def empty : Aggregation α := ⟨[], []⟩

def operation : String := "list across namespaces"

def absorb (merged : Aggregation α) (arrival : Arrival α) : Except ApiFault (Aggregation α) :=
  match arrival.outcome with
  | .listed items => .ok ⟨merged.items ++ items, merged.denied⟩
  | .denied => .ok ⟨merged.items, merged.denied ++ [arrival.scope]⟩
  | .failed fault => .error fault
  | .cancelled => .error (.cancelled operation)

/-- Join arrivals in their order, up to the first that ends the whole. -/
def merge (merged : Aggregation α) : List (Arrival α) → Except ApiFault (Aggregation α)
  | [] => .ok merged
  | arrival :: rest =>
    match merged.absorb arrival with
    | .ok merged => merge merged rest
    | .error fault => .error fault

def allDenied (total : Nat) : ApiFault :=
  .refused .unauthorised (some ("access denied to all " ++ toString total ++ " namespaces"))

def close (policy : ScopePolicy) (total : Nat) (merged : Aggregation α) :
    Except ApiFault (Aggregation α) :=
  if merged.denied.length = total ∧ policy = .fail then .error (allDenied total) else .ok merged

def collect (policy : ScopePolicy) (scopes : List NamespaceId) (arrivals : List (Arrival α)) :
    Except ApiFault (Aggregation α) :=
  if scopes.isEmpty then .ok empty
  else
    match merge empty arrivals with
    | .error fault => .error fault
    | .ok merged => merged.close policy scopes.length

end Aggregation

end StorageControl
