import StorageControl.Proofs.Fanout.Clock
import StorageControl.Proofs.Flights
import StorageControl.Proofs.Transparency

/-! What an operation that lists all volumes leaves behind.

The operation finds out which namespaces there are and lists them at once. Its tasks may
take turns in any order, the token may fire and the deadline may come at any moment. When
the operation has returned, nothing of it is in the air and none of its tasks goes on; and
no listing that takes longer than one that failed lands at any time.
-/

set_option autoImplicit false

namespace StorageControl

variable {σ α : Type}

namespace Limits

theorem hasFired_eq_false {limits : Limits} {moment : Nat} :
    limits.hasFired moment = false ↔ ∀ c, limits.cancelAt = some c → moment < c := by
  rw [hasFired]
  cases limits.cancelAt <;> simp

/-- A token that would have stopped a call has not fired when the call lands. -/
theorem unfired_of_stop?_eq_none {limits : Limits} {due : Nat}
    (unstopped : limits.stop? (some due) = Option.none) : limits.hasFired due = false := by
  refine hasFired_eq_false.mpr fun c set => Nat.not_le.mp fun past => ?_
  have fires : limits.cancelAt.filter (isBy · (some due)) = some c := by
    simp [set, isBy, past]
  rw [stop?, fires] at unstopped
  split at unstopped
  · split at unstopped <;> cases unstopped
  · cases unstopped
  · cases unstopped
  next none _ => cases none

end Limits

namespace Machine

/-- The token has not fired when a call has landed. -/
theorem unfired_of_landed {T : Transport σ} {limits : Limits} {c : Call} {m after : Machine σ}
    {reply : c.Reply} (unfired : limits.hasFired m.clock = false)
    (landed : perform T limits c m = (.landed reply, after)) :
    limits.hasFired after.clock = false := by
  simp only [perform] at landed
  split at landed
  · cases landed
  next unstopped =>
    have clock :
        (touchDown T c (launch T c m).1.due ((launch T c m).2.drop (launch T c m).1)).2.clock =
          max m.clock (launch T c m).1.due := rfl
    generalize touchDown T c _ _ = touched at landed clock
    obtain ⟨answer, late⟩ := touched
    cases answer with
    | some answer =>
      cases landed
      rw [Limits.hasFired_eq_false] at unfired ⊢
      have later := Limits.hasFired_eq_false.mp (Limits.unfired_of_stop?_eq_none unstopped)
      intro moment set
      have clock : late.clock = max m.clock (launch T c m).1.due := clock
      have early := unfired moment set
      have unstopped := later moment set
      show late.clock < moment
      omega
    | none =>
      obtain ⟨-, waiting | ⟨stop, stopped⟩⟩ := waitOn_cases landed
      · cases waiting
      · cases stopped

end Machine

/-- What the tasks of an operation that lists all volumes may have come to, once the operation
has found out which namespaces there are. -/
inductive Client.FansOut (client : Client) (T : Transport σ) (operation : Operation α)
    (m : Machine σ) : ScopePolicy → Fanout (Noted σ) → Prop where
  | intro {policy : ScopePolicy} {pick : List Volume → Except ApiFault α}
      {namespaces : List Namespace} {middle : Machine (Noted σ)} {g : Fanout (Noted σ)}
      (program : operation.program = .allVolumes policy pick)
      (unfired : (client.limits m).hasFired m.clock = false)
      (listed : Machine.perform T.noting (client.limits m) .listNamespaces m.fresh =
        (.landed (.ok namespaces), middle))
      (steps : Fanout.Steps T.noting policy (client.limits m).deadline
        (.start middle.server middle.clock (namespaces.map Namespace.id)) g) :
      FansOut client T operation m policy g

namespace Client

variable {client : Client} {T : Transport σ} {operation : Operation α} {m : Machine σ}
  {policy : ScopePolicy} {g : Fanout (Noted σ)}

theorem FansOut.nothing_later (fansOut : client.FansOut T operation m policy g)
    (ended : g.ending ≠ .waiting) {later : Fanout (Noted σ)}
    (onward : Fanout.Steps T.noting policy (client.limits m).deadline g later) :
    later.server = g.server := by
  obtain ⟨_, _, _, steps⟩ := fansOut
  exact ((Fanout.halted_of_ended steps ended).steps onward).2.1

/-- At the start of its tasks the operation has seen no listing. -/
theorem seen_of_listed {limits : Limits} {namespaces : List Namespace}
    {middle : Machine (Noted σ)}
    (listed : Machine.perform T.noting limits .listNamespaces m.fresh =
      (.landed (.ok namespaces), middle)) :
    middle.server.seen =
      [.started .listNamespaces, .landed .listNamespaces (some (.ok namespaces))] := by
  obtain ⟨sightings, seen, attempt⟩ := Machine.perform_attempt T limits .listNamespaces m.fresh
  rw [listed] at seen attempt
  cases attempt
  exact seen

theorem FansOut.bounded {holds : σ → Prop} {delay : NamespaceId → Nat}
    (paced : Fanout.Paced T holds delay) (held : holds m.server)
    (fansOut : client.FansOut T operation m policy g) : Fanout.Bounded delay g.server.seen := by
  obtain ⟨program, unfired, listed, steps⟩ := fansOut
  have keeps : Machine.Keeps T.noting (fun c => c.isListing = true) fun n => holds n.server :=
    ⟨fun c n lists => paced.start c n.server lists, fun c n lists => paced.land c n.server lists⟩
  have kept := Machine.perform_keeps keeps (client.limits m) (c := .listNamespaces) rfl m.fresh held
  have seen := seen_of_listed listed
  rw [listed] at kept
  refine Fanout.bounded_of_steps paced kept (fun scope reply => ?_) steps
  simp [seen]

/-- What an operation has seen on the clock is what its tasks have, in some order of turns;
unless it has not listed anything. -/
theorem seen_cases (client : Client) (T : Transport σ) (m : Machine σ)
    (gathers : operation.Gathers) :
    (∀ scope reply, .landed (.listVolumes scope) reply ∉ client.seen T operation m) ∨
      ∃ policy g, client.FansOut T operation m policy g ∧
        g.server.seen = client.seen T operation m := by
  obtain ⟨policy, pick, program⟩ := gathers
  cases fired : (client.limits m).hasFired m.clock with
  | true =>
    rw [seen, perform_of_fired (m := m.fresh) fired]
    exact .inl fun scope reply => List.not_mem_nil
  | false =>
    have limits : client.limits m.fresh = client.limits m := rfl
    rw [seen, perform_of_unfired (m := m.fresh) fired, Prod.map_snd, program, limits]
    simp only [Program.allVolumes, Program.ask, Machine.run, id_eq]
    obtain ⟨sightings, told, attempt⟩ :=
      Machine.perform_attempt T (client.limits m) .listNamespaces m.fresh
    rcases listed : Machine.perform T.noting (client.limits m) .listNamespaces m.fresh with
      ⟨outcome, middle⟩
    rw [listed] at told attempt
    replace told : middle.server.seen = sightings := told
    cases attempt with
    | answered reply =>
      cases reply with
      | error fault =>
        refine .inl fun scope reply => ?_
        simp [Machine.run, told]
      | ok namespaces =>
        refine .inr ?_
        have unlisted := Machine.unfired_of_landed (m := m.fresh) fired listed
        obtain ⟨g, steps, server, -⟩ := Fanout.joint_steps T.noting (client.limits m) policy
          (namespaces.map Namespace.id) middle unlisted
        refine ⟨policy, g, .intro program fired listed steps, ?_⟩
        rw [server]
        simp only [Machine.run]
        -- What follows the join makes no calls.
        rcases Machine.join (client.limits m) policy (namespaces.map Namespace.id) _ _ with
          ⟨joined | stop | _, late⟩
        · cases joined <;> rfl
        · rfl
        · rfl
    | unanswered =>
      refine .inl fun scope reply => ?_
      simp [told]
    | dropped stop =>
      refine .inl fun scope reply => ?_
      simp [told]
    | abandoned stop =>
      refine .inl fun scope reply => ?_
      simp [told]

/-- After an operation that lists all volumes has returned, for whatever reason, none of its
listings goes on; and once one has failed, none that takes longer lands. -/
theorem no_listing_left_behind (T : Transport σ) (client : Client) {operation : Operation α}
    (gathers : operation.Gathers) (m : Machine σ) :
    let ran := client.perform T operation m
    ran.2.flights.Perm m.flights ∧
    (m.flights = [] → ∀ waits : List Nat,
      (waits.foldl (fun late wait => late.advance T wait) ran.2).server = ran.2.server) ∧
    (∀ policy g, client.FansOut T operation m policy g → g.ending ≠ .waiting →
      ∀ later, Fanout.Steps T.noting policy (client.limits m).deadline g later →
        later.server = g.server) ∧
    ∀ holds delay, Fanout.Paced T holds delay → holds m.server →
      Fanout.Bounded delay (client.seen T operation m) ∧
        ∀ policy g, client.FansOut T operation m policy g →
          Fanout.Bounded delay g.server.seen := by
  intro ran
  have flights : ran.2.flights.Perm m.flights := perform_flights
  refine ⟨flights, fun idle waits => ?_, fun policy g fansOut ended later onward =>
    fansOut.nothing_later ended onward, fun holds delay paced held => ⟨?_, fun policy g fansOut =>
      fansOut.bounded paced held⟩⟩
  · rw [idle] at flights
    exact Machine.advanceAll_of_idle flights.eq_nil T waits
  · rcases seen_cases client T m gathers with
      unlisted | ⟨policy, g, fansOut, same⟩
    · exact fun scope reply _ _ landed => absurd landed (unlisted scope reply)
    · rw [← same]
      exact fansOut.bounded paced held

end Client

/-- The world makes each listing wait as long as is planned for it. -/
theorem World.paced (w : World) :
    Fanout.Paced transport (fun v => v.delays = w.delays)
      fun scope => w.delayOf (.listVolumes scope) where
  start _ _ _ same := same
  land c v lists same := by
    have noted : (v.noteListing c).delays = v.delays := by cases c <;> rfl
    have acted (u : World) : (u.act c).2 = u := by cases c <;> first | rfl | cases lists
    show (v.land c).2.delays = w.delays
    rw [land]
    cases needs : (v.noteListing c).needsLogin c with
    | true => simpa [needs] using noted.trans same
    | false =>
      rcases fault : takeFault c (v.noteListing c).faults with ⟨_ | fault, faults⟩
      · simpa [needs, fault, acted] using noted.trans same
      · simpa [needs, fault] using noted.trans same
  waits scope v same := by
    show v.delayOf _ = w.delayOf _
    rw [delayOf, same, delayOf]

/-- One of two listings fails while the other one is still in the air. -/
theorem no_listing_after_failure :
    let a : NamespaceId := ⟨⟨"a", by decide⟩⟩
    let b : NamespaceId := ⟨⟨"b", by decide⟩⟩
    let space (id : NamespaceId) : Namespace :=
      ⟨id, "space", .empty, none, none, World.firstVersion⟩
    let world : World := { World.empty with
      namespaces := [space a, space b]
      delays := [⟨⟨"list_volumes", some "a"⟩, 50⟩, ⟨⟨"list_volumes", some "b"⟩, 20⟩]
      faults := [⟨⟨"list_volumes", some "b"⟩, none, .response 500 (.raw "boom")⟩] }
    let m : Machine World := ⟨world, 0, [], none⟩
    let client : Client := ⟨some ⟨90000000⟩, .skip⟩
    let operation : Operation (List Volume) := .getAllVolumesByName .skip ["disk"]
    let ran := client.perform World.transport operation m
    ran.1 = some (.error (.refused .server (some "boom"))) ∧ ran.2.clock = 20 ∧
      (∀ reply, .landed (.listVolumes a) reply ∉ client.seen World.transport operation m) ∧
      ∀ waits : List Nat, (waits.foldl (fun late wait => late.advance World.transport wait)
        ran.2).server.completed = [b] := by
  intro a b space world m client operation ran
  have gathers : operation.Gathers := ⟨.skip, (Selection.byNames · ["disk"]), rfl⟩
  obtain ⟨-, later, -, bounded⟩ :=
    Client.no_listing_left_behind World.transport client gathers m
  obtain ⟨bounded, -⟩ := bounded _ _ world.paced rfl
  have failed : .landed (.listVolumes b) (some (.error (.response 500 (.raw "boom")))) ∈
      client.seen World.transport operation m :=
    .tail _ (.tail _ (.tail _ (.tail _ (.head _))))
  refine ⟨rfl, rfl, fun reply landed => ?_, fun waits => ?_⟩
  · have longer := bounded a reply b _ landed failed rfl
    revert longer
    decide
  · rw [later rfl waits]
    rfl

end StorageControl
