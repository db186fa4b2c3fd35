import StorageControl.Proofs.Change
import StorageControl.Proofs.Effects

/-! Operations that are given up.

An operation that its deadline or the token ends drops the call that it waits for. So a
change that was given up has not been made and never will be; and one that was made brings
the result that the server told.
-/

set_option autoImplicit false

namespace StorageControl

variable {σ ε : Type}

/-- Whether a failure says that the client gave an operation up. -/
def ApiFault.isAbandonment : ApiFault → Bool
  | .cancelled _ | .deadlineExceeded _ _ => true
  | .refused _ _ | .ambiguousName _ _ _ | .transport _ => false

theorem TransportFault.sort_isAbandonment (fault : TransportFault) :
    fault.sort.isAbandonment = false := by
  unfold sort
  split
  · split <;> rfl
  · rfl
  · rfl

theorem Call.conclude_isAbandonment {c : Call} {reply : c.Reply} {fault : ApiFault}
    (failed : c.conclude reply = .error fault) : fault.isAbandonment = false := by
  cases reply with
  | ok answer => cases failed
  | error cause => cases failed; exact cause.sort_isAbandonment

/-- A new resource. -/
inductive Creation where
  | volume (scope : NamespaceId) (spec : VolumeSpec) (asyncMax : Option Span)
  | nspace (spec : NamespaceSpec)
  | user (spec : UserSpec)

namespace Creation

def call : Creation → Call
  | volume scope spec asyncMax => .createVolume scope spec asyncMax
  | nspace spec => .createNamespace spec
  | user spec => .createUser spec

def operation : (creation : Creation) → Operation creation.call.Answer
  | volume scope spec asyncMax => .createVolume scope spec asyncMax
  | nspace spec => .createNamespace spec
  | user spec => .createUser spec

theorem operation_program (creation : Creation) :
    creation.operation.program = .only creation.call := by
  cases creation <;> rfl

end Creation

theorem Change.Stage.of_mutation {change : Change} {constraint : VersionConstraint}
    {history : List Exchange} {e : Exchange} {result : Except ApiFault change.Answer}
    (stage : change.Stage constraint (history ++ [e]) (.done result))
    (changing : e.call.isMutation = true) :
    ∃ v reply, e = ⟨change.present v, reply⟩ ∧ result = change.conclude v reply := by
  -- The last exchange settles which of the stages this is; a read cannot be it.
  generalize exchanges : history ++ [e] = all at stage
  generalize finished : Program.done result = rest at stage
  have last (before : List Exchange) (x : Exchange) (same : history ++ [e] = before ++ [x]) :
      e = x := by simpa using (List.append_inj' same rfl).2
  cases stage with
  | given | uninformed | informed => cases finished
  | presented v reply =>
    cases finished
    exact ⟨v, reply, last [] _ exchanges, rfl⟩
  | unreadable fault =>
    obtain rfl := last [] _ exchanges
    simp [change.read_isMutation] at changing
  | applied resource reply =>
    cases finished
    exact ⟨_, reply, last [_] _ exchanges, rfl⟩

/-- An operation that makes one changing call: the change of a resource or a new one. -/
inductive Mutation where
  | alter (change : Change) (constraint : VersionConstraint)
  | create (creation : Creation)

namespace Mutation

@[reducible] def Answer : Mutation → Type
  | alter change _ => change.Answer
  | create creation => creation.call.Answer

def operation : (mutation : Mutation) → Operation mutation.Answer
  | alter change constraint => change.operation constraint
  | create creation => creation.operation

/-- The result that the changing call decides with its reply. -/
inductive Decides : (mutation : Mutation) → Exchange → Except ApiFault mutation.Answer → Prop where
  | alter (change : Change) (constraint : VersionConstraint) (v : Version)
      (reply : (change.present v).Reply) :
      Decides (.alter change constraint) ⟨change.present v, reply⟩ (change.conclude v reply)
  | create (creation : Creation) (reply : creation.call.Reply) :
      Decides (.create creation) ⟨creation.call, reply⟩ (creation.call.conclude reply)

/-- No reply of the server reads as if the client had given the operation up. -/
theorem Decides.isAbandonment {mutation : Mutation} {e : Exchange} {fault : ApiFault}
    (decides : mutation.Decides e (.error fault)) : fault.isAbandonment = false := by
  generalize failed : Except.error fault = result at decides
  cases decides with
  | alter change constraint v reply =>
    cases reply with
    | ok brought => cases failed
    | error cause => cases failed; exact cause.sort_isAbandonment
  | create creation reply => exact Call.conclude_isAbandonment failed.symm

/-- Nothing follows the changing call. -/
theorem operation_ends (mutation : Mutation) :
    mutation.operation.program.EndsWith fun c => c.isMutation = true := by
  cases mutation with
  | create creation =>
    rw [operation, creation.operation_program]
    exact Program.only_endsWith _ _
  | alter change constraint =>
    have applying (v : Version) : (change.applying v).EndsWith fun c => c.isMutation = true :=
      fun reply => ⟨trivial, fun _ => ⟨_, rfl⟩⟩
    rw [operation, change.operation_program]
    cases constraint with
    | conditional v => exact applying v
    | unconditional =>
      -- The read comes before the change, but it changes nothing.
      have reads : change.read.isMutation ≠ true := by simp [change.read_isMutation]
      intro reply
      cases reply with
      | ok resource => exact ⟨applying _, fun changing => absurd changing reads⟩
      | error fault => exact ⟨trivial, fun changing => absurd changing reads⟩

theorem decides_of_reaches {mutation : Mutation} {history : List Exchange} {e : Exchange}
    {result : Except ApiFault mutation.Answer}
    (reached : mutation.operation.program.Reaches (history ++ [e]) (.done result))
    (changing : e.call.isMutation = true) : mutation.Decides e result := by
  cases mutation with
  | alter change constraint =>
    obtain ⟨v, reply, rfl, rfl⟩ := (Change.stage_of_reaches reached).of_mutation changing
    exact .alter change constraint v reply
  | create creation =>
    rw [operation, creation.operation_program] at reached
    obtain ⟨reply, rfl, rfl⟩ := Program.of_reaches_only reached
    exact .create creation reply

end Mutation

/-- An operation that is given up leaves what it was to change as it is, then and later; one
that has changed it returns what the server answered. -/
theorem Mutation.abandoned_without_effect {T : Transport σ} {view : σ → ε}
    (effective : T.EffectiveOnReply view) (mutation : Mutation) (client : Client)
    (m : Machine σ) :
    let ran := client.perform T mutation.operation m
    let effects := client.effects T view mutation.operation m
    Chronicle (view m.server) effects (view ran.2.server) ∧
    (∀ fault, ran.1 = some (.error fault) → fault.isAbandonment = true →
      ∀ e ∈ effects, e.call.isMutation = true → e.after = e.before) ∧
    ran.2.flights.Perm m.flights ∧
    (m.flights = [] → ∀ milliseconds,
      (ran.2.advance T milliseconds).server = ran.2.server) ∧
    ∀ e ∈ effects, e.call.isMutation = true → e.after ≠ e.before →
      ∃ reply result, e.reply = some reply ∧ mutation.Decides ⟨e.call, reply⟩ result ∧
        ran.1 = some result := by
  intro ran effects
  have ends := mutation.operation_ends
  obtain ⟨chronicle, decided⟩ : Chronicle (view m.server) effects (view ran.2.server) ∧ _ :=
    Client.effects_decide effective ends
  have decides : ∀ e ∈ effects, e.call.isMutation = true → e.after ≠ e.before →
      ∃ reply result, e.reply = some reply ∧ mutation.Decides ⟨e.call, reply⟩ result ∧
        ran.1 = some result := by
    intro e member changing changed
    obtain ⟨history, reply, result, replied, reached, returned⟩ :=
      decided e member changing changed
    exact ⟨reply, result, replied, decides_of_reaches reached changing, returned⟩
  refine ⟨chronicle, ?_, Client.perform_flights, Client.advance_after, decides⟩
  intro fault failed abandoned e member changing
  -- Had it changed something, the result would be that of a reply.
  refine Classical.byContradiction fun changed => ?_
  obtain ⟨reply, result, -, decision, returned⟩ := decides e member changing changed
  obtain rfl : result = .error fault := by rw [failed] at returned; simpa using returned.symm
  rw [decision.isAbandonment] at abandoned
  cases abandoned

/-! ### The server in memory -/

namespace World

/-- A world apart from its record of calls. -/
def holdings (w : World) : World := { w with calls := [] }

theorem land_answers (c : Call) (w : World) : (land c w).1 ≠ none := by
  simp only [land]
  split
  · simp
  · split <;> simp

theorem transport_effective : World.transport.EffectiveOnReply holdings where
  start _ _ := rfl
  unanswered c w silent := absurd silent (land_answers c w)

end World

/-- The deadline passes between the read of a deletion and the deletion itself. -/
theorem Mutation.abandoned_after_read :
    let scope : NamespaceId := ⟨⟨"n", by decide⟩⟩
    let id : VolumeId := ⟨⟨"v", by decide⟩⟩
    let volume : Volume :=
      ⟨id, "disk", "", 1, scope, none, .empty, .ext4, 0, none, [], none, none, World.firstVersion⟩
    let world : World := { World.empty with
      volumes := [volume], bumpOnRead := true, delays := [⟨⟨"delete_volume", none⟩, 150⟩] }
    let m : Machine World := ⟨world, 0, [], none⟩
    let client : Client := ⟨some ⟨50000000⟩, .skip⟩
    let mutation : Mutation := .alter (.volume scope id (.delete none)) .unconditional
    let ran := client.perform World.transport mutation.operation m
    let effects := client.effects World.transport World.holdings mutation.operation m
    ran.1 = some (.error (.deadlineExceeded "delete volume" ⟨50000000⟩)) ∧
      (∀ e ∈ effects, e.call.isMutation = true → e.after = e.before) ∧
      effects.map Effect.call = [.getVolume scope id] ∧
      ∀ milliseconds, ((ran.2.advance World.transport milliseconds).server.volume? scope id).map
        Volume.version = some (World.next World.firstVersion) := by
  intro scope id volume world m client mutation ran effects
  have abandoned := mutation.abandoned_without_effect World.transport_effective client m
  obtain ⟨-, without, -, later, -⟩ := abandoned
  have expired : ran.1 =
      some (.error (.deadlineExceeded "delete volume" ⟨50000000⟩)) := rfl
  refine ⟨expired, without _ expired rfl, rfl, fun milliseconds => ?_⟩
  rw [later rfl milliseconds]
  rfl

end StorageControl
