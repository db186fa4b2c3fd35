import StorageControl.Proofs.Conversation
import StorageControl.World

/-! Changes that present a version.

Volumes, namespaces and users are changed only at a version that the change presents:
the one it was given, or the one that a single read of the same resource brought. What a
transport sees of such a change is settled by the version it was given and by the replies.
-/

set_option autoImplicit false

namespace StorageControl

variable {σ : Type}

/-- What may be done to a volume at a version. -/
inductive VolumeChange where
  | delete (asyncMax : Option Span)
  | detach
  | setReplicas (replicas : Nat)
  deriving DecidableEq

/-- A change of a resource that presents a version. -/
inductive Change where
  | volume (scope : NamespaceId) (id : VolumeId) (change : VolumeChange)
  | deleteNamespace (id : NamespaceId)
  | deleteUser (id : UserId)
  deriving DecidableEq

namespace Change

@[reducible] def Answer : Change → Type
  | volume _ _ (.setReplicas _) => Volume
  | volume _ _ (.delete _) | volume _ _ .detach | deleteNamespace _ | deleteUser _ => Unit

def operation : (change : Change) → VersionConstraint → Operation change.Answer
  | volume scope id (.delete asyncMax), constraint => .deleteVolume scope id constraint asyncMax
  | volume scope id .detach, constraint => .detachVolume scope id constraint
  | volume scope id (.setReplicas replicas), constraint => .setReplicas scope id replicas constraint
  | deleteNamespace id, constraint => .deleteNamespace id constraint
  | deleteUser id, constraint => .deleteUser id constraint

/-- The call that reads the resource. -/
def read : Change → Call
  | volume scope id _ => .getVolume scope id
  | deleteNamespace id => .getNamespace id
  | deleteUser id => .getUser id

def version : (change : Change) → change.read.Answer → Version
  | volume _ _ _, found => Volume.version found
  | deleteNamespace _, found => Namespace.version found
  | deleteUser _, found => User.version found

/-- The call that changes the resource. -/
def present : Change → Version → Call
  | volume scope id (.delete asyncMax), v => .deleteVolume scope id v asyncMax
  | volume scope id .detach, v => .detachVolume scope id v
  | volume scope id (.setReplicas replicas), v => .setReplicas scope id replicas v
  | deleteNamespace id, v => .deleteNamespace id v
  | deleteUser id, v => .deleteUser id v

theorem present_injective (change : Change) {v w : Version}
    (same : change.present v = change.present w) : v = w := by
  rcases change with ⟨_, _, _ | _ | _⟩ | _ | _ <;> cases same <;> rfl

theorem present_isMutation (change : Change) (v : Version) :
    (change.present v).isMutation = true := by
  rcases change with ⟨_, _, _ | _ | _⟩ | _ | _ <;> rfl

theorem read_isMutation (change : Change) : change.read.isMutation = false := by
  cases change <;> rfl

theorem read_ne_present (change : Change) (v : Version) : change.read ≠ change.present v := by
  rcases change with ⟨_, _, _ | _ | _⟩ | _ | _ <;> exact nofun

/-- The answer of the changing call, as the client passes it on. -/
def answer : (change : Change) → (v : Version) → (change.present v).Answer → change.Answer
  | volume _ _ (.delete _), _, done => done
  | volume _ _ .detach, _, done => done
  | volume _ _ (.setReplicas _), _, changed => changed
  | deleteNamespace _, _, done => done
  | deleteUser _, _, done => done

/-- The result of a change, given the reply to its changing call. -/
def conclude (change : Change) (v : Version) :
    (change.present v).Reply → Except ApiFault change.Answer
  | .ok brought => .ok (change.answer v brought)
  | .error fault => .error fault.sort

theorem conclude_eq_ok {change : Change} {v : Version} {reply : (change.present v).Reply}
    {answer : change.Answer} (ok : change.conclude v reply = .ok answer) :
    ∃ brought, reply = .ok brought := by
  cases reply with
  | ok brought => exact ⟨brought, rfl⟩
  | error fault => cases ok

def applying (change : Change) (v : Version) : Program change.Answer :=
  .call (change.present v) fun reply => .done (change.conclude v reply)

/-- A change given no version reads the resource first. -/
def resolving (change : Change) : Program change.Answer :=
  .call change.read fun
    | .ok resource => change.applying (change.version resource)
    | .error fault => .done (.error fault.sort)

theorem applying_eq (change : Change) (v : Version) :
    Program.ask (change.present v) (fun brought => .done (.ok (change.answer v brought))) =
      change.applying v := by
  rw [Program.ask, applying]
  congr 1
  funext reply
  cases reply <;> rfl

theorem operation_program (change : Change) (constraint : VersionConstraint) :
    (change.operation constraint).program =
      match constraint with
      | .conditional v => change.applying v
      | .unconditional => change.resolving := by
  have guarded : (change.operation constraint).program =
      .guarded constraint ⟨change.read, change.version⟩ change.present change.answer := by
    rcases change with ⟨_, _, _ | _ | _⟩ | _ | _ <;> rfl
  rw [guarded]
  cases constraint with
  | conditional v => exact change.applying_eq v
  | unconditional =>
    refine congrArg (Program.call change.read) (funext fun reply => ?_)
    cases reply with
    | ok resource => exact change.applying_eq (change.version resource)
    | error fault => rfl

/-- How far a change has come: its exchanges so far, and what is left of it. -/
inductive Stage (change : Change) :
    VersionConstraint → List Exchange → Program change.Answer → Prop where
  | given (v : Version) : Stage change (.conditional v) [] (change.applying v)
  | presented (v : Version) (reply : (change.present v).Reply) :
      Stage change (.conditional v) [⟨change.present v, reply⟩] (.done (change.conclude v reply))
  | uninformed : Stage change .unconditional [] change.resolving
  | unreadable (fault : TransportFault) :
      Stage change .unconditional [⟨change.read, .error fault⟩] (.done (.error fault.sort))
  | informed (resource : change.read.Answer) :
      Stage change .unconditional [⟨change.read, .ok resource⟩]
        (change.applying (change.version resource))
  | applied (resource : change.read.Answer)
      (reply : (change.present (change.version resource)).Reply) :
      Stage change .unconditional
        [⟨change.read, .ok resource⟩, ⟨change.present (change.version resource), reply⟩]
        (.done (change.conclude (change.version resource) reply))

theorem reaches_applying {change : Change} {v : Version} {history : List Exchange}
    {rest : Program change.Answer} (reached : (change.applying v).Reaches history rest) :
    (history = [] ∧ rest = change.applying v) ∨
      ∃ reply, history = [⟨change.present v, reply⟩] ∧ rest = .done (change.conclude v reply) := by
  cases reached with
  | here => exact .inl ⟨rfl, rfl⟩
  | next reached =>
    cases reached with
    | here => exact .inr ⟨_, rfl, rfl⟩

/-- Whatever the replies, a change is at one of its stages. -/
theorem stage_of_reaches {change : Change} {constraint : VersionConstraint}
    {history : List Exchange} {rest : Program change.Answer}
    (reached : (change.operation constraint).program.Reaches history rest) :
    change.Stage constraint history rest := by
  rw [operation_program] at reached
  cases constraint with
  | conditional v =>
    obtain ⟨rfl, rfl⟩ | ⟨reply, rfl, rfl⟩ := reaches_applying reached
    · exact .given v
    · exact .presented v reply
  | unconditional =>
    cases reached with
    | here => exact .uninformed
    | @next _ _ reply _ _ reached =>
      cases reply with
      | error fault =>
        cases reached with
        | here => exact .unreadable fault
      | ok resource =>
        obtain ⟨rfl, rfl⟩ | ⟨reply, rfl, rfl⟩ := reaches_applying reached
        · exact .informed resource
        · exact .applied resource reply

/-- A change that succeeded made its changing call with success, and nothing after it. -/
theorem Stage.of_ok {change : Change} {constraint : VersionConstraint} {history : List Exchange}
    {answer : change.Answer} (stage : change.Stage constraint history (.done (.ok answer))) :
    (∃ v brought, constraint = .conditional v ∧ history = [⟨change.present v, .ok brought⟩]) ∨
      ∃ resource brought, constraint = .unconditional ∧
        history = [⟨change.read, .ok resource⟩,
          ⟨change.present (change.version resource), .ok brought⟩] := by
  generalize finished : Program.done (.ok answer) = rest at stage
  cases stage with
  | given v => cases finished
  | presented v reply =>
    obtain ⟨brought, rfl⟩ := conclude_eq_ok (Program.done.inj finished).symm
    exact .inl ⟨v, brought, rfl, rfl⟩
  | uninformed => cases finished
  | unreadable fault => cases finished
  | informed resource => cases finished
  | applied resource reply =>
    obtain ⟨brought, rfl⟩ := conclude_eq_ok (Program.done.inj finished).symm
    exact .inr ⟨resource, brought, rfl, rfl⟩

theorem Stage.of_presented {change : Change} {constraint : VersionConstraint}
    {history : List Exchange} {rest : Program change.Answer}
    (stage : change.Stage constraint history rest) {e : Exchange} (member : e ∈ history)
    {v : Version} (call : e.call = change.present v) :
    ∃ reply, e = ⟨change.present v, reply⟩ ∧ rest = .done (change.conclude v reply) := by
  cases stage with
  | given => cases member
  | presented w reply =>
    obtain rfl := List.mem_singleton.mp member
    obtain rfl := change.present_injective call
    exact ⟨reply, rfl, rfl⟩
  | uninformed => cases member
  | unreadable fault =>
    obtain rfl := List.mem_singleton.mp member
    exact absurd call (change.read_ne_present v)
  | informed resource =>
    obtain rfl := List.mem_singleton.mp member
    exact absurd call (change.read_ne_present v)
  | applied resource reply =>
    rcases List.mem_cons.mp member with rfl | member
    · exact absurd call (change.read_ne_present v)
    · obtain rfl := List.mem_singleton.mp member
      obtain rfl := change.present_injective call
      exact ⟨reply, rfl, rfl⟩

/-- A change makes one changing call at most. -/
theorem Stage.mutation_unique {change : Change} {constraint : VersionConstraint}
    {history : List Exchange} {rest : Program change.Answer}
    (stage : change.Stage constraint history rest) {x y : Exchange} (first : x ∈ history)
    (second : y ∈ history) (changing : x.call.isMutation = true)
    (changing' : y.call.isMutation = true) : x = y := by
  -- An exchange that may change a resource is not the one that reads it.
  have reads {e : Exchange} {reply : change.read.Reply} (changing : e.call.isMutation = true) :
      e ≠ ⟨change.read, reply⟩ := by
    rintro rfl
    rw [change.read_isMutation] at changing
    cases changing
  cases stage with
  | given | uninformed => cases first
  | presented => rw [List.mem_singleton.mp first, List.mem_singleton.mp second]
  | unreadable | informed => exact absurd (List.mem_singleton.mp first) (reads changing)
  | applied =>
    have first := (List.mem_cons.mp first).resolve_left (reads changing)
    have second := (List.mem_cons.mp second).resolve_left (reads changing')
    rw [List.mem_singleton.mp first, List.mem_singleton.mp second]

theorem operation_sequential (change : Change) (constraint : VersionConstraint) :
    (change.operation constraint).program.Sequential := by
  rw [operation_program]
  cases constraint with
  | conditional v => exact fun reply => trivial
  | unconditional =>
    intro reply
    cases reply with
    | ok resource => exact fun reply => trivial
    | error fault => exact trivial

/-- What a transport sees of a change, and its result; none when an answer never comes. -/
inductive Account (change : Change) :
    VersionConstraint → List Sighting → Option (Except ApiFault change.Answer) → Prop where
  /-- Given a version, the change presents it. -/
  | presented (v : Version) (reply : Option (change.present v).Reply) :
      Account change (.conditional v)
        [.started (change.present v), .landed (change.present v) reply]
        (reply.map (change.conclude v))
  | unread :
      Account change .unconditional [.started change.read, .landed change.read none] none
  | unreadable (fault : TransportFault) :
      Account change .unconditional
        [.started change.read, .landed change.read (some (.error fault))]
        (some (.error fault.sort))
  /-- Given none, the change presents the version that its read brought. -/
  | applied (resource : change.read.Answer)
      (reply : Option (change.present (change.version resource)).Reply) :
      Account change .unconditional
        [.started change.read, .landed change.read (some (.ok resource)),
          .started (change.present (change.version resource)),
          .landed (change.present (change.version resource)) reply]
        (reply.map (change.conclude (change.version resource)))

/-- Over every transport, a change that nothing disturbs makes the calls of its account. -/
theorem seen_accounts (client : Client) (T : Transport σ) (change : Change)
    (constraint : VersionConstraint) (m : Machine σ)
    (undisturbed : client.Undisturbed T (change.operation constraint) m) :
    change.Account constraint (client.seen T (change.operation constraint) m)
      (client.perform T (change.operation constraint) m).1 := by
  obtain ⟨history, rest, last, reached, settles, told⟩ :=
    Client.seen_of_undisturbed undisturbed (change.operation_sequential constraint)
  have stage := stage_of_reaches reached
  rw [told]
  generalize (client.perform T (change.operation constraint) m).1 = result at settles
  -- A change that is over has all its replies; one that is not waits for the last of them.
  cases stage with
  | given v =>
    cases settles with
    | unanswered => exact .presented v none
  | presented v reply =>
    cases settles with
    | finished => exact .presented v (some reply)
  | uninformed =>
    cases settles with
    | unanswered => exact .unread
  | unreadable fault =>
    cases settles with
    | finished => exact .unreadable fault
  | informed resource =>
    cases settles with
    | unanswered => exact .applied resource none
  | applied resource reply =>
    cases settles with
    | finished => exact .applied resource (some reply)

/-- A refusal of the version that was read is the result, and nothing is tried again. -/
theorem seen_of_outdated_delete :
    let id : UserId := ⟨⟨"u", by decide⟩⟩
    let user : User := ⟨id, "ann", false, [], none, none, World.firstVersion⟩
    let world : World := { World.empty with users := [user], bumpOnRead := true }
    let m : Machine World := ⟨world, 0, [], none⟩
    let client : Client := ⟨none, .skip⟩
    let operation := (deleteUser id).operation .unconditional
    client.seen World.transport operation m =
        [.started (.getUser id), .landed (.getUser id) (some (.ok user)),
          .started (.deleteUser id user.version),
          .landed (.deleteUser id user.version) (some (World.refuse 412 "version mismatch"))] ∧
      (client.perform World.transport operation m).1 =
        some (.error (.refused .staleWrite (some "version mismatch"))) ∧
      (deleteUser id).Account .unconditional (client.seen World.transport operation m)
        (client.perform World.transport operation m).1 := by
  intro id user world m client operation
  refine ⟨rfl, rfl, ?_⟩
  exact seen_accounts client World.transport (deleteUser id) .unconditional m (.of_free rfl rfl)

end Change

end StorageControl
