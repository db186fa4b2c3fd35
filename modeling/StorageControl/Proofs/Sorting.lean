import StorageControl.Fault
import StorageControl.Proofs.Trimming

/-! How faults of a transport are sorted.

Ten statuses have a kind each. An answer with one of them becomes a refusal of that kind,
with what its body tells as the details unless it tells nothing; every other fault is passed
on whole. So neither a status nor an explanation is lost, and there is always something to
say.
-/

set_option autoImplicit false

namespace StorageControl

/-! ### Statuses -/

namespace Refusal

/-- The statuses that have a kind of their own, with their kinds. -/
def table : List (Nat × Refusal) :=
  [(400, .badRequest), (401, .authentication), (403, .unauthorised), (404, .notFound),
    (409, .conflict), (412, .staleWrite), (422, .invalidStateTransition),
    (451, .licenceCapability), (500, .server), (503, .store)]

theorem mem_table {status : Nat} {refusal : Refusal} :
    (status, refusal) ∈ table ↔ refusal.status = status := by
  cases refusal <;> simp [table, Refusal.status, eq_comm]

theorem ofStatus?_eq_some_iff {status : Nat} {refusal : Refusal} :
    ofStatus? status = some refusal ↔ (status, refusal) ∈ table := by
  rw [mem_table]
  constructor
  · intro found
    simpa using List.find?_some found
  · rintro rfl
    cases refusal <;> rfl

theorem ofStatus?_eq_none_iff {status : Nat} :
    ofStatus? status = none ↔ ∀ refusal, (status, refusal) ∉ table := by
  simp only [Option.eq_none_iff_forall_ne_some, ne_eq, ofStatus?_eq_some_iff]

theorem message_ne_empty (refusal : Refusal) : refusal.message ≠ "" := by
  cases refusal <;> decide

end Refusal

/-! ### Details -/

/-- The text that a body tells: that of the error document as it is, and of any other body
what lies between the white space at its ends. -/
inductive Payload.Tells : Payload → String → Prop where
  | structured (error : String) : Tells (.structured error) error
  | raw {body text : String} (trims : Text.Trims Text.isWhiteSpace body.toList text.toList) :
      Tells (.raw body) text

/-- The text in a body, empty or not. -/
def Payload.text : Payload → String
  | .structured error => error
  | .raw body => Text.trim body

theorem Payload.tells_iff {payload : Payload} {text : String} :
    payload.Tells text ↔ text = payload.text := by
  cases payload with
  | structured error =>
    constructor
    · intro tells
      cases tells
      rfl
    · rintro rfl
      exact .structured _
  | raw body =>
    rw [eq_comm, Payload.text, Text.trim_eq_iff]
    constructor
    · intro tells
      cases tells with
      | raw trims => exact trims
    · exact .raw

theorem Payload.details_eq (payload : Payload) :
    payload.details = if payload.text = "" then none else some payload.text := by
  cases payload <;> rfl

theorem Payload.details_ne_empty (payload : Payload) : payload.details ≠ some "" := by
  rw [details_eq]
  split
  · nofun
  next told => simpa using told

/-! ### Faults -/

namespace TransportFault

theorem message_ne_empty (fault : TransportFault) : fault.message ≠ "" := by
  have lead {lead rest : String} (some : lead ≠ "") : lead ++ rest ≠ "" := fun empty =>
    some (String.append_eq_empty_iff.mp empty).1
  cases fault with
  | response status payload => exact lead (lead (lead (by decide)))
  | request message => exact lead (by decide)
  | decode message => exact lead (by decide)

theorem sort_response {status : Nat} {refusal : Refusal}
    (listed : (status, refusal) ∈ Refusal.table) (payload : Payload) :
    (response status payload).sort = .refused refusal payload.details := by
  rw [sort, Refusal.ofStatus?_eq_some_iff.mpr listed]

/-- Sorting yields a refusal or the fault itself. -/
theorem sort_cases (fault : TransportFault) :
    (∃ status refusal payload, fault = .response status payload ∧
      (status, refusal) ∈ Refusal.table ∧ fault.sort = .refused refusal payload.details) ∨
    ((∀ status payload refusal, fault = .response status payload →
      (status, refusal) ∉ Refusal.table) ∧ fault.sort = .transport fault) := by
  cases fault with
  | response status payload =>
    cases found : Refusal.ofStatus? status with
    | some refusal =>
      have listed := Refusal.ofStatus?_eq_some_iff.mp found
      exact .inl ⟨status, refusal, payload, rfl, listed, sort_response listed payload⟩
    | none =>
      refine .inr ⟨?_, by rw [sort, found]⟩
      rintro _ _ refusal ⟨⟩
      exact Refusal.ofStatus?_eq_none_iff.mp found refusal
  | request message => exact .inr ⟨nofun, rfl⟩
  | decode message => exact .inr ⟨nofun, rfl⟩

theorem sort_eq_transport_iff {fault other : TransportFault} :
    fault.sort = .transport other ↔ other = fault ∧
      ∀ status payload refusal, fault = .response status payload →
        (status, refusal) ∉ Refusal.table := by
  obtain ⟨status, refusal, payload, rfl, listed, sorted⟩ | ⟨unlisted, sorted⟩ := fault.sort_cases
  · rw [sorted]
    exact ⟨nofun, fun ⟨_, unlisted⟩ => absurd listed (unlisted status payload refusal rfl)⟩
  · rw [sorted, ApiFault.transport.injEq, eq_comm]
    exact (and_iff_left unlisted).symm

theorem sort_eq_refused_iff {fault : TransportFault} {refusal : Refusal}
    {details : Option String} :
    fault.sort = .refused refusal details ↔
      ∃ payload, fault = .response refusal.status payload ∧ payload.details = details := by
  constructor
  · intro refused
    obtain ⟨status, other, payload, rfl, listed, sorted⟩ | ⟨-, sorted⟩ := fault.sort_cases
    · rw [sorted] at refused
      cases refused
      exact ⟨payload, by rw [Refusal.mem_table.mp listed], rfl⟩
    · rw [sorted] at refused
      cases refused
  · rintro ⟨payload, rfl, rfl⟩
    exact sort_response (Refusal.mem_table.mpr rfl) payload

theorem sort_details_ne_empty (fault : TransportFault) : fault.sort.details? ≠ some "" := by
  obtain ⟨status, refusal, payload, -, -, sorted⟩ | ⟨-, sorted⟩ := fault.sort_cases
  · rw [sorted]
    exact payload.details_ne_empty
  · rw [sorted]
    nofun

theorem sort_message_ne_empty (fault : TransportFault) : fault.sort.message ≠ "" := by
  obtain ⟨status, refusal, payload, -, -, sorted⟩ | ⟨-, sorted⟩ := fault.sort_cases
  · rw [sorted]
    show payload.details.getD refusal.message ≠ ""
    cases told : payload.details with
    | none => exact refusal.message_ne_empty
    | some text =>
      rintro rfl
      exact payload.details_ne_empty told
  · rw [sorted]
    exact fault.message_ne_empty

/-- Two answers that differ in their statuses alone are told apart. -/
theorem sort_response_ne {status other : Nat} (differ : status ≠ other) (payload : Payload) :
    (response status payload).sort ≠ (response other payload).sort := by
  intro same
  obtain ⟨_, refusal, _, ⟨⟩, listed, sorted⟩ | ⟨-, sorted⟩ := (response status payload).sort_cases
  · obtain ⟨_, second, _, ⟨⟩, listedToo, sortedToo⟩ | ⟨-, sortedToo⟩ :=
      (response other payload).sort_cases
    -- Refusals of one kind are of one status.
    · rw [sorted, sortedToo, ApiFault.refused.injEq] at same
      obtain ⟨rfl, -⟩ := same
      exact differ ((Refusal.mem_table.mp listed).symm.trans (Refusal.mem_table.mp listedToo))
    · rw [sorted, sortedToo] at same
      cases same
  -- A fault that is passed on holds its status still.
  · rw [sorted] at same
    obtain ⟨same, -⟩ := sort_eq_transport_iff.mp same.symm
    cases same
    exact differ rfl

/-- A fault is passed on as it is if and only if it has none of the statuses in the table. With
one of them it becomes a refusal of its kind, whose details are what the body tells, and are
missing if and only if that is empty. There are never empty details, nor is there an empty
message, and answers with different statuses stay different. -/
theorem sort_exact :
    (∀ fault : TransportFault,
      (∀ other, fault.sort = .transport other ↔ other = fault ∧
        ∀ status payload refusal, fault = .response status payload →
          (status, refusal) ∉ Refusal.table) ∧
      (∀ status payload refusal, fault = .response status payload →
        (status, refusal) ∈ Refusal.table →
          ∃ text, (∀ told, payload.Tells told ↔ told = text) ∧
            fault.sort = .refused refusal (if text = "" then none else some text)) ∧
      fault.sort.details? ≠ some "" ∧ fault.sort.message ≠ "") ∧
    ∀ payload status other, status ≠ other →
      (response status payload).sort ≠ (response other payload).sort := by
  refine ⟨fun fault => ⟨fun other => sort_eq_transport_iff, ?_, fault.sort_details_ne_empty,
    fault.sort_message_ne_empty⟩, fun payload status other differ => sort_response_ne differ payload⟩
  rintro status payload refusal rfl listed
  refine ⟨payload.text, fun told => Payload.tells_iff, ?_⟩
  rw [sort_response listed, payload.details_eq]

end TransportFault

end StorageControl
