import StorageControl.Proofs.Gathering.Clock
import StorageControl.Proofs.Passage

/-! What is in the air.

A program puts its calls into the air and takes each of them out again, as it lands or as
the program gives it up. So after an operation the same calls are in the air as before it,
and however long the clock goes on, none of its own takes effect any more.
-/

set_option autoImplicit false

namespace StorageControl

variable {σ α : Type}

namespace Machine

/-- The call in the air is the only one that a wait adds, and it does not stay there. -/
theorem drop_launch_flights (T : Transport σ) (c : Call) (m : Machine σ) :
    (((launch T c m).2.drop (launch T c m).1).flights).Perm m.flights := by
  simp only [launch, drop]
  have last := List.perm_append_singleton (Flight.mk c (m.clock + (T.start c m.server).1)) m.flights
  refine (last.erase _).trans ?_
  rw [List.erase_cons_head]

theorem waitOn_flights (limits : Limits) (m : Machine σ) :
    (waitOn limits m : Landing α × Machine σ).2.flights = m.flights := by
  rw [waitOn]
  split
  · rfl
  · rfl

theorem perform_flights (T : Transport σ) (limits : Limits) (c : Call) (m : Machine σ) :
    (perform T limits c m).2.flights.Perm m.flights := by
  have dropped := drop_launch_flights T c m
  simp only [perform]
  split
  · exact dropped
  · simp only [touchDown]
    split
    · exact dropped
    · rw [waitOn_flights]
      exact dropped

/-! ### Many listings at once -/

/-- The calls in the air are some others and the listings of an agenda. -/
def Bears (m : Machine σ) (others : List Flight) (agenda : List Listing) : Prop :=
  m.flights.Perm (others ++ agenda.map Listing.flight)

theorem Bears.drop {m : Machine σ} {others : List Flight} {l : Listing} {rest : List Listing}
    (bears : m.Bears others (l :: rest)) : (m.drop l.flight).Bears others rest := by
  have head : (others ++ (l :: rest).map Listing.flight).Perm
      (l.flight :: (others ++ rest.map Listing.flight)) := List.perm_middle
  have dropped := (List.Perm.trans bears head).erase l.flight
  rwa [List.erase_cons_head] at dropped

theorem Bears.dropAll {m : Machine σ} {others : List Flight} {agenda : List Listing}
    (bears : m.Bears others agenda) : (m.dropAll agenda).flights.Perm others := by
  induction agenda generalizing m with
  | nil => simpa [Bears, Machine.dropAll] using bears
  | cons l rest ih => exact ih bears.drop

theorem launchAll_bears (T : Transport σ) (scopes : List NamespaceId) {others : List Flight}
    {agenda : List Listing} {m : Machine σ} (bears : m.Bears others agenda) :
    (launchAll T scopes agenda m).2.Bears others (launchAll T scopes agenda m).1 := by
  induction scopes generalizing agenda m with
  | nil => exact bears
  | cons scope rest ih =>
    rw [launchAll]
    refine ih ?_
    let l : Listing := ⟨(launch T (.listVolumes scope) m).1.due, scope⟩
    have scheduled : ((schedule l agenda).map Listing.flight).Perm
        (agenda.map Listing.flight ++ [l.flight]) :=
      ((schedule_perm l agenda).map _).trans (List.perm_append_singleton _ _).symm
    have launched : (m.flights ++ [l.flight]).Perm
        (others ++ (agenda.map Listing.flight ++ [l.flight])) := by
      rw [← List.append_assoc]
      exact List.Perm.append_right _ bears
    exact launched.trans (scheduled.symm.append_left _)

theorem landAll_flights (T : Transport σ) (limits : Limits) (ended : Option Nat)
    {others : List Flight} {agenda : List Listing} {m : Machine σ}
    (bears : m.Bears others agenda) :
    (landAll T limits ended agenda m).2.flights.Perm others := by
  induction agenda generalizing ended m with
  | nil => exact bears.dropAll
  | cons l rest ih =>
    rw [landAll]
    split
    · exact bears.dropAll
    · split
      · exact bears.dropAll
      · have landed : (touchDown T (.listVolumes l.scope) l.due (m.drop l.flight)).2.Bears
            others rest := bears.drop
        generalize touchDown T (.listVolumes l.scope) l.due (m.drop l.flight) = touched at landed
        obtain ⟨reply, after⟩ := touched
        cases reply with
        | none => exact ih ended landed
        | some reply => exact ih _ landed

theorem gather_flights (T : Transport σ) (limits : Limits) (scopes : List NamespaceId)
    (m : Machine σ) : (gather T limits scopes m).2.flights.Perm m.flights := by
  rw [gather]
  split
  · exact .rfl
  · have bears : m.Bears m.flights [] := by simp [Bears]
    exact landAll_flights T limits none (launchAll_bears T scopes bears)

theorem join_flights (limits : Limits) (policy : ScopePolicy) (scopes : List NamespaceId)
    (g : Gathered) (m : Machine σ) :
    (join limits policy scopes g m).2.flights = m.flights := by
  rw [join]
  split
  · rfl
  · split
    · rfl
    · exact waitOn_flights limits m

/-! ### Programs -/

theorem run_flights (T : Transport σ) (limits : Limits) (program : Program α) (m : Machine σ) :
    (run T limits program m).2.flights.Perm m.flights :=
  run_related (fun m after => after.flights.Perm m.flights) (fun _ => .rfl)
    (fun _ _ _ before after => after.trans before) (perform_flights T limits)
    (gather_flights T limits)
    (fun policy scopes g m => .of_eq (join_flights limits policy scopes g m)) program m

/-- With nothing in the air, the server stays as it is however long the clock goes on. -/
theorem advanceAll_of_idle {m : Machine σ} (idle : m.flights = []) (T : Transport σ)
    (waits : List Nat) :
    (waits.foldl (fun late wait => late.advance T wait) m).server = m.server := by
  induction waits generalizing m with
  | nil => rfl
  | cons wait rest ih =>
    have same : m.advance T wait = { m with clock := m.clock + wait } := by simp [advance, idle]
    rw [List.foldl_cons, same]
    exact ih idle

theorem advance_of_idle {m : Machine σ} (idle : m.flights = []) (T : Transport σ)
    (milliseconds : Nat) : (m.advance T milliseconds).server = m.server := by
  simp [advance, idle]

end Machine

namespace Client

variable {client : Client} {T : Transport σ} {operation : Operation α} {m : Machine σ}

theorem perform_of_fired (fired : (client.limits m).hasFired m.clock = true) (T : Transport σ)
    (operation : Operation α) :
    client.perform T operation m = (some (.error (.cancelled operation.name)), m) := by
  rw [perform, if_pos fired]

theorem perform_flights : (client.perform T operation m).2.flights.Perm m.flights := by
  cases fired : (client.limits m).hasFired m.clock with
  | true => rw [perform_of_fired fired]
  | false =>
    rw [perform_of_unfired fired]
    exact Machine.run_flights T _ _ m

/-- After an operation nothing of it is in the air. -/
theorem advance_after (idle : m.flights = []) (milliseconds : Nat) :
    ((client.perform T operation m).2.advance T milliseconds).server =
      (client.perform T operation m).2.server := by
  have flights : (client.perform T operation m).2.flights.Perm m.flights := perform_flights
  rw [idle] at flights
  exact Machine.advance_of_idle flights.eq_nil T milliseconds

end Client

end StorageControl
