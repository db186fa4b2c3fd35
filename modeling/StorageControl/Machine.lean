import StorageControl.Operation

/-! Carrying out programs on a clock.

A machine holds the state that a transport works on, a clock in milliseconds, the calls
in the air and the moment at which the client's token fires. A call takes effect when it
lands, at the moment that its start set. A program may be stopped while it waits, by the
token or by its deadline; its calls in the air are then dropped and never land. When
several things happen at one moment, the token comes first, a landing second and the
deadline last.
-/

set_option autoImplicit false

namespace StorageControl

structure Flight where
  call : Call
  due : Nat
  deriving DecidableEq

structure Machine (σ : Type) where
  server : σ
  clock : Nat
  flights : List Flight
  /-- The moment at which the client's token fires, if one is set. -/
  cancelAt : Option Nat

inductive Stop where
  | cancelled
  | expired
  deriving DecidableEq, Repr

structure Limits where
  cancelAt : Option Nat
  deadline : Option Nat
  deriving DecidableEq, Repr

namespace Limits

def none : Limits := ⟨Option.none, Option.none⟩

def isBy (moment : Nat) : Option Nat → Bool
  | Option.none => true
  | some due => moment ≤ due

def isBefore (moment : Nat) : Option Nat → Bool
  | Option.none => true
  | some due => moment < due

/-- What stops a wait for a moment that may never come, and when. -/
def stop? (limits : Limits) (due : Option Nat) : Option (Stop × Nat) :=
  match limits.cancelAt.filter (isBy · due), limits.deadline.filter (isBefore · due) with
  | some c, some d => if c ≤ d then some (.cancelled, c) else some (.expired, d)
  | some c, Option.none => some (.cancelled, c)
  | Option.none, some d => some (.expired, d)
  | Option.none, Option.none => Option.none

def hasFired (limits : Limits) (moment : Nat) : Bool :=
  match limits.cancelAt with
  | some c => c ≤ moment
  | Option.none => false

end Limits

inductive Landing (α : Type) where
  | landed (a : α)
  | stopped (stop : Stop)
  | waiting

namespace Machine

variable {σ α : Type}

def reach (m : Machine σ) (moment : Nat) : Machine σ := { m with clock := max m.clock moment }

def drop (m : Machine σ) (flight : Flight) : Machine σ :=
  { m with flights := m.flights.erase flight }

def launch (T : Transport σ) (c : Call) (m : Machine σ) : Flight × Machine σ :=
  let (wait, server) := T.start c m.server
  let flight : Flight := ⟨c, m.clock + wait⟩
  (flight, { m with server, flights := m.flights ++ [flight] })

def touchDown (T : Transport σ) (c : Call) (due : Nat) (m : Machine σ) :
    Option c.Reply × Machine σ :=
  let (reply, server) := T.land c m.server
  (reply, { m with server, clock := max m.clock due })

def waitOn (limits : Limits) (m : Machine σ) : Landing α × Machine σ :=
  match limits.stop? none with
  | some (stop, moment) => (.stopped stop, m.reach moment)
  | none => (.waiting, m)

def perform (T : Transport σ) (limits : Limits) (c : Call) (m : Machine σ) :
    Landing c.Reply × Machine σ :=
  let (flight, m) := launch T c m
  match limits.stop? (some flight.due) with
  | some (stop, moment) => (.stopped stop, (m.drop flight).reach moment)
  | none =>
    let (reply, m) := touchDown T c flight.due (m.drop flight)
    match reply with
    | some reply => (.landed reply, m)
    | none => waitOn limits m

/-! ### Many listings at once -/

structure Listing where
  due : Nat
  scope : NamespaceId

def Listing.flight (l : Listing) : Flight := ⟨.listVolumes l.scope, l.due⟩

def schedule (l : Listing) : List Listing → List Listing
  | [] => [l]
  | first :: rest => if l.due < first.due then l :: first :: rest else first :: schedule l rest

/-- Start the listings of namespaces, in order; they are returned by landing moment, and
in the order of their start at one moment. -/
def launchAll (T : Transport σ) :
    List NamespaceId → List Listing → Machine σ → List Listing × Machine σ
  | [], agenda, m => (agenda, m)
  | scope :: rest, agenda, m =>
    let (flight, m) := launch T (.listVolumes scope) m
    launchAll T rest (schedule ⟨flight.due, scope⟩ agenda) m

def dropAll (m : Machine σ) (agenda : List Listing) : Machine σ :=
  agenda.foldl (fun m l => m.drop l.flight) m

/-- What became of listings: those that arrived, in order; the namespaces of the others;
and what stopped the wait for them. -/
structure Gathered where
  arrivals : List (Arrival Volume)
  missing : List NamespaceId
  stop : Option Stop

namespace Gathered

def noneOf (scopes : List NamespaceId) (stop : Option Stop) : Gathered := ⟨[], scopes, stop⟩

def arrive (scope : NamespaceId) (outcome : ScopeOutcome Volume) (g : Gathered) : Gathered :=
  { g with arrivals := ⟨scope, outcome⟩ :: g.arrivals }

def miss (scope : NamespaceId) (g : Gathered) : Gathered := { g with missing := scope :: g.missing }

end Gathered

/-- Land listings in order. Once one has ended the whole at a moment, those that land at
the same moment still do and the later ones are dropped. -/
def landAll (T : Transport σ) (limits : Limits) (ended : Option Nat) :
    List Listing → Machine σ → Gathered × Machine σ
  | [], m => (.noneOf [] none, m)
  | l :: rest, m =>
    if ended.any (· < l.due) then (.noneOf ((l :: rest).map Listing.scope) none, m.dropAll (l :: rest))
    else match limits.stop? (some l.due) with
      | some (stop, moment) =>
        (.noneOf ((l :: rest).map Listing.scope) (some stop), (m.dropAll (l :: rest)).reach moment)
      | none =>
        let (reply, m) := touchDown T (.listVolumes l.scope) l.due (m.drop l.flight)
        match reply with
        | none =>
          let (gathered, m) := landAll T limits ended rest m
          (gathered.miss l.scope, m)
        | some reply =>
          let outcome := ScopeOutcome.ofReply reply
          let ended := if outcome.isFinal then ended.or (some l.due) else ended
          let (gathered, m) := landAll T limits ended rest m
          (gathered.arrive l.scope outcome, m)

/-- List namespaces at once; nothing starts when the token has already fired. -/
def gather (T : Transport σ) (limits : Limits) (scopes : List NamespaceId) (m : Machine σ) :
    Gathered × Machine σ :=
  if limits.hasFired m.clock then (.noneOf scopes (some .cancelled), m)
  else
    let (agenda, m) := launchAll T scopes [] m
    landAll T limits none agenda m

def Gathered.isFinal (g : Gathered) : Bool := g.arrivals.any (·.outcome.isFinal)

def join (limits : Limits) (policy : ScopePolicy) (scopes : List NamespaceId) (g : Gathered)
    (m : Machine σ) : Landing (Except ApiFault (Aggregation Volume)) × Machine σ :=
  match g.stop with
  | some stop => (.stopped stop, m)
  | none =>
    if g.isFinal || g.missing.isEmpty then
      (.landed (Aggregation.collect policy scopes g.arrivals), m)
    else waitOn limits m

/-! ### Programs -/

def run (T : Transport σ) (limits : Limits) :
    Program α → Machine σ → Landing (Except ApiFault α) × Machine σ
  | .done result, m => (.landed result, m)
  | .call c next, m =>
    match perform T limits c m with
    | (.landed reply, m) => run T limits (next reply) m
    | (.stopped stop, m) => (.stopped stop, m)
    | (.waiting, m) => (.waiting, m)
  | .gather policy scopes next, m =>
    let (gathered, m) := gather T limits scopes m
    match join limits policy scopes gathered m with
    | (.landed result, m) => run T limits (next result) m
    | (.stopped stop, m) => (.stopped stop, m)
    | (.waiting, m) => (.waiting, m)

/-- Let time pass. Whatever is still in the air and due by then takes effect. -/
def advance (T : Transport σ) (milliseconds : Nat) (m : Machine σ) : Machine σ :=
  let moment := m.clock + milliseconds
  let (due, later) := m.flights.partition (·.due ≤ moment)
  { m with
    server := due.foldl (fun server flight => (T.land flight.call server).2) m.server
    flights := later
    clock := moment }

def cancelIn (m : Machine σ) (milliseconds : Nat) : Machine σ :=
  let moment := m.clock + milliseconds
  { m with cancelAt := some (match m.cancelAt with | some c => min c moment | none => moment) }

def isCancelled (m : Machine σ) : Bool := Limits.hasFired ⟨m.cancelAt, none⟩ m.clock

/-! ### The joint listing on its own -/

def collect (T : Transport σ) (policy : ScopePolicy) (scopes : List NamespaceId)
    (m : Machine σ) : Landing (Except ApiFault (Aggregation Volume)) × Machine σ :=
  let limits : Limits := ⟨m.cancelAt, none⟩
  let (gathered, m) := gather T limits scopes m
  match join limits policy scopes gathered m with
  | (.stopped _, m) =>
    let stopped := gathered.missing.map fun scope => ⟨scope, .cancelled⟩
    (.landed (Aggregation.collect policy scopes (gathered.arrivals ++ stopped)), m)
  | ended => ended

/-- List every namespace. Finding out which there are is not stopped by the token. -/
def collectAll (T : Transport σ) (policy : ScopePolicy) (m : Machine σ) :
    Landing (Except ApiFault (Aggregation Volume)) × Machine σ :=
  match perform T .none .listNamespaces m with
  | (.landed (.ok namespaces), m) => collect T policy (namespaces.map Namespace.id) m
  | (.landed (.error fault), m) => (.landed (.error fault.sort), m)
  | (.stopped stop, m) => (.stopped stop, m)
  | (.waiting, m) => (.waiting, m)

end Machine

end StorageControl
