import Mathlib.Logic.Function.Basic
import StorageControl.Proofs.Effects
import StorageControl.Proofs.Passage
import StorageControl.Proofs.Transparency

/-! Clients that share tokens.

Clients are handles: settings, and the token that they listen to. A clone has the token of
the client that it was made from, whatever its timeout, and there may be clients with other
tokens to the same server. A token that has fired has fired for good, so every operation
through one of its handles is refused from then on.
-/

set_option autoImplicit false

namespace StorageControl

variable {σ α : Type}

/-- A client and the number of the token that it listens to. -/
structure Handle where
  client : Client
  token : Nat

/-- A server, what is in the air to it, and the moments at which tokens fire. -/
structure Scene (σ : Type) where
  server : σ
  clock : Nat
  flights : List Flight
  tokens : Nat → Option Nat

namespace Scene

def machine (s : Scene σ) (token : Nat) : Machine σ :=
  ⟨s.server, s.clock, s.flights, s.tokens token⟩

def leave (s : Scene σ) (token : Nat) (m : Machine σ) : Scene σ :=
  ⟨m.server, m.clock, m.flights, Function.update s.tokens token m.cancelAt⟩

@[simp]
theorem leave_machine (s : Scene σ) (token : Nat) : s.leave token (s.machine token) = s := by
  simp [leave, machine]

def HasFired (s : Scene σ) (token : Nat) : Prop := (s.machine token).isCancelled = true

theorem hasFired_iff {s : Scene σ} {token : Nat} :
    s.HasFired token ↔ ∃ moment, s.tokens token = some moment ∧ moment ≤ s.clock :=
  Machine.isCancelled_iff _

end Scene

namespace Handle

def withTimeout (h : Handle) (timeout : Option Span) : Handle :=
  ⟨h.client.withTimeout timeout, h.token⟩

/-- The handles that come from one: its clones, and those with another timeout. -/
inductive Derives (h : Handle) : Handle → Prop where
  | clone : Derives h h
  | withTimeout {derived : Handle} (derives : Derives h derived) (timeout : Option Span) :
      Derives h (derived.withTimeout timeout)

theorem Derives.token {h derived : Handle} (derives : h.Derives derived) :
    derived.token = h.token := by
  induction derives with
  | clone => rfl
  | withTimeout _ _ ih => exact ih

def perform (h : Handle) (T : Transport σ) (operation : Operation α) (s : Scene σ) :
    Option (Except ApiFault α) × Scene σ :=
  Prod.map id (s.leave h.token) (h.client.perform T operation (s.machine h.token))

def seen (h : Handle) (T : Transport σ) (operation : Operation α) (s : Scene σ) :
    List Sighting :=
  h.client.seen T operation (s.machine h.token)

end Handle

namespace Scene

/-- What may happen at a scene: an operation through some handle, the cancellation of some
token now or later, a while without any operation, and whatever others do to the server. -/
inductive Step (T : Transport σ) (s : Scene σ) : Scene σ → Prop where
  | operation {α : Type} (h : Handle) (operation : Operation α) :
      Step T s (h.perform T operation s).2
  | cancel (token milliseconds : Nat) :
      Step T s (s.leave token ((s.machine token).cancelIn milliseconds))
  | wait (token milliseconds : Nat) :
      Step T s (s.leave token ((s.machine token).advance T milliseconds))
  | others (server : σ) (flights : List Flight) : Step T s { s with server, flights }

inductive History (T : Transport σ) : Scene σ → Scene σ → Prop where
  | nil (s : Scene σ) : History T s s
  | snoc {s middle later : Scene σ} :
      History T s middle → Step T middle later → History T s later

/-- A token keeps its moment, or has it moved to an earlier one; and time goes on. -/
structure Hastens (s later : Scene σ) : Prop where
  clock : s.clock ≤ later.clock
  tokens : ∀ token moment, s.tokens token = some moment →
    ∃ sooner, later.tokens token = some sooner ∧ sooner ≤ moment

theorem Hastens.refl (s : Scene σ) : s.Hastens s :=
  ⟨Nat.le_refl _, fun _ moment set => ⟨moment, set, Nat.le_refl _⟩⟩

theorem Hastens.trans {s middle later : Scene σ} (first : s.Hastens middle)
    (second : middle.Hastens later) : s.Hastens later where
  clock := Nat.le_trans first.clock second.clock
  tokens token moment set := by
    obtain ⟨sooner, set, before⟩ := first.tokens token moment set
    obtain ⟨soonest, set, earlier⟩ := second.tokens token sooner set
    exact ⟨soonest, set, Nat.le_trans earlier before⟩

theorem Hastens.hasFired {s later : Scene σ} (hastens : s.Hastens later) {token : Nat}
    (fired : s.HasFired token) : later.HasFired token := by
  obtain ⟨moment, set, past⟩ := hasFired_iff.mp fired
  obtain ⟨sooner, set, before⟩ := hastens.tokens token moment set
  exact hasFired_iff.mpr
    ⟨sooner, set, Nat.le_trans before (Nat.le_trans past hastens.clock)⟩

theorem leave_hastens (s : Scene σ) {token : Nat} {m : Machine σ} (clock : s.clock ≤ m.clock)
    (sooner : ∀ moment, s.tokens token = some moment →
      ∃ earlier, m.cancelAt = some earlier ∧ earlier ≤ moment) :
    s.Hastens (s.leave token m) where
  clock := clock
  tokens other moment set := by
    by_cases same : other = token
    · subst same
      obtain ⟨earlier, moved, before⟩ := sooner moment set
      exact ⟨earlier, by simp [leave, moved], before⟩
    · exact ⟨moment, by simp [leave, same, set], Nat.le_refl _⟩

theorem leave_precedes (s : Scene σ) {token : Nat} {m : Machine σ}
    (precedes : (s.machine token).Precedes m) : s.Hastens (s.leave token m) :=
  s.leave_hastens precedes.clock fun moment set =>
    ⟨moment, precedes.cancelAt.trans set, Nat.le_refl _⟩

theorem Step.hastens {T : Transport σ} {s later : Scene σ} (step : Step T s later) :
    s.Hastens later := by
  cases step with
  | operation h operation => exact s.leave_precedes (h.client.perform_precedes T operation _)
  | cancel token milliseconds =>
    refine s.leave_hastens (Nat.le_refl _) fun moment set => ?_
    refine ⟨min moment (s.clock + milliseconds), ?_, Nat.min_le_left _ _⟩
    simp only [Machine.cancelIn, machine, set]
  | wait token milliseconds => exact s.leave_precedes (Machine.advance_precedes T milliseconds _)
  | others server flights => exact ⟨Nat.le_refl _, (Hastens.refl s).tokens⟩

theorem History.hastens {T : Transport σ} {s later : Scene σ} (history : History T s later) :
    s.Hastens later := by
  induction history with
  | nil => exact .refl _
  | snoc _ step ih => exact ih.trans step.hastens

end Scene

/-- Whatever an operation of the interface is called, it is not what a joint listing calls
itself when it is cancelled. -/
theorem Operation.Offered.name_ne {operation : Operation α} (offered : operation.Offered) :
    operation.name ≠ Aggregation.operation := by
  cases offered with
  | create creation => cases creation <;> exact ne_of_beq_false rfl
  | alter change constraint =>
    rcases change with ⟨_, _, _ | _ | _⟩ | _ | _ <;> exact ne_of_beq_false rfl
  | _ => exact ne_of_beq_false rfl

theorem Handle.perform_of_fired {h : Handle} {s : Scene σ} (fired : s.HasFired h.token)
    (T : Transport σ) (operation : Operation α) :
    h.perform T operation s = (some (.error (.cancelled operation.name)), s) := by
  rw [perform, Client.perform_of_fired fired, Prod.map_apply, Scene.leave_machine]
  rfl

theorem Handle.seen_of_fired {h : Handle} {s : Scene σ} (fired : s.HasFired h.token)
    (T : Transport σ) (operation : Operation α) : h.seen T operation s = [] := by
  rw [seen, Client.seen, Client.perform_of_fired (m := (s.machine h.token).fresh) fired]
  rfl

/-- Cancellation is for good: once a token has fired, whatever happens then, an operation
through any handle that comes from one with this token is refused under its own name, and
does nothing. -/
theorem Handle.refused_ever_after {T : Transport σ} {h derived : Handle} {s later : Scene σ}
    (fired : s.HasFired h.token) (history : Scene.History T s later)
    (derives : h.Derives derived) (operation : Operation α) :
    derived.perform T operation later = (some (.error (.cancelled operation.name)), later) ∧
      derived.seen T operation later = [] ∧
      (operation.Offered → operation.name ≠ Aggregation.operation) := by
  have fired := history.hastens.hasFired fired
  rw [← derives.token] at fired
  exact ⟨perform_of_fired fired T operation, seen_of_fired fired T operation, fun offered =>
    offered.name_ne⟩

/-- One of two clients is cancelled after its login; the other goes on, and changes what the
first one no longer sees. -/
theorem Handle.refused_beside_another_client :
    let h : Handle := ⟨⟨none, .skip⟩, 0⟩
    let other : Handle := ⟨⟨none, .skip⟩, 1⟩
    let world : World := { World.empty with credential := Credential.ofText? "token-for-ann" }
    let s : Scene World := ⟨world, 7, [], fun token => if token = 0 then some 5 else none⟩
    let added := other.perform World.transport (.createNamespace ⟨"n", .empty⟩) s
    let later := added.2
    let derived := h.withTimeout (some Span.zero)
    s.HasFired h.token ∧ (added.1.map Except.isOk) = some true ∧
      derived.perform World.transport (.getAllVolumes .skip []) later =
        (some (.error (.cancelled "list volumes in all namespaces")), later) ∧
      derived.seen World.transport (.getAllVolumes .skip []) later = [] ∧
      later.server.namespaces.length = 1 ∧ later.server.credential = world.credential := by
  intro h other world s added later derived
  have fired : s.HasFired h.token := rfl
  have history : Scene.History World.transport s later :=
    .snoc (.nil s) (.operation other (.createNamespace ⟨"n", .empty⟩))
  have derives : h.Derives derived := .withTimeout .clone (some Span.zero)
  obtain ⟨refused, unseen, -⟩ :=
    refused_ever_after fired history derives (.getAllVolumes .skip [])
  exact ⟨fired, rfl, refused, unseen, rfl, rfl⟩

end StorageControl
