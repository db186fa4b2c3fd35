import StorageControl.Proofs.Record

/-! The widths of numbers.

A size has 64 bits and an inode 32. A number that does not fit is refused while a document
is read, so that no resource that came from a document has one.
-/

set_option autoImplicit false

namespace StorageControl

open Json (Decoder Record Tree)

theorem of_map_ok {ε α β : Type} {x : Except ε α} {f : α → β} {b : β}
    (ok : f <$> x = .ok b) : ∃ a, x = .ok a ∧ f a = b := by
  cases x with
  | error e => cases ok
  | ok a => exact ⟨a, rfl, Except.ok.inj ok⟩

/-- The capacity of a licence has 64 bits. -/
def Licence.Fits (l : Licence) : Prop := l.capacityBytes < Word.limit 64

def Cluster.Fits (c : Cluster) : Prop := c.licence.Fits

/-- The inode of a deployment has 32 bits. -/
def Deployment.Fits (d : Deployment) : Prop := d.inode < Word.limit 32

/-- Each number of a volume and of its deployments has the width of its type. -/
structure Volume.Fits (v : Volume) : Prop where
  sizeBytes : v.sizeBytes < Word.limit 64
  inode : v.inode < Word.limit 32
  master : ∀ d ∈ v.master, d.Fits
  replicas : ∀ d ∈ v.replicas, d.Fits

/-! ### What a reader gives -/

namespace Json

variable {α β : Type}

/-- Whether whatever is read has a property. -/
def Gives (decode : Decoder α) (holds : α → Prop) : Prop := ∀ t a, decode t = .ok a → holds a

namespace Decode

theorem natural_gives (bound : Nat) (wanted : String) :
    Gives (natural bound wanted) fun n => n < bound := by
  intro t n read
  cases t with
  | number numeral =>
    rw [natural] at read
    split at read
    · split at read
      next small =>
        cases read
        exact small
      next => cases read
    all_goals cases read
  | _ =>
    rw [natural, Tree.mismatch] at read
    · split at read <;> cases read
    all_goals simp

theorem option_gives {decode : Decoder α} {holds : α → Prop} (gives : Gives decode holds) :
    Gives (option decode) fun o => ∀ a ∈ o, holds a := by
  intro t o read b here
  unfold option at read
  split at read
  · cases read
    cases here
  · obtain ⟨a, decoded, rfl⟩ := of_map_ok read
    cases here
    exact gives t b decoded

theorem items_gives {decode : Decoder α} {holds : α → Prop} (gives : Gives decode holds) :
    ∀ {trees : List Tree} {as : List α}, items decode trees = .ok as → ∀ a ∈ as, holds a
  | [], as, read, a, here => by
    cases read
    cases here
  | t :: rest, as, read, a, here => by
    rw [items] at read
    obtain ⟨b, decoded, read⟩ := of_bind_ok read
    obtain ⟨more, later, read⟩ := of_bind_ok read
    cases read
    rcases List.mem_cons.mp here with rfl | here
    · exact gives t a decoded
    · exact items_gives gives later a here

theorem list_gives {decode : Decoder α} {holds : α → Prop} (gives : Gives decode holds) :
    Gives (list decode) fun as => ∀ a ∈ as, holds a := by
  intro t as read
  cases t with
  | list trees close =>
    rw [list] at read
    obtain ⟨values, decoded, read⟩ := of_bind_ok read
    obtain ⟨-, -, read⟩ := of_bind_ok read
    cases read
    exact items_gives gives decoded
  | _ =>
    rw [list, Tree.mismatch] at read
    · split at read <;> cases read
    all_goals simp

end Decode

namespace Record

theorem builds_field {name : String} {decode : Decoder α} {a : α} {holds : α → Prop}
    (gives : Gives decode holds) (otherwise : holds a) :
    (defaulted name decode a).Builds holds := by
  intro find b built
  simp only [defaulted, field] at built
  split at built
  · exact gives _ b built
  · cases built
    exact otherwise

/-- A property of the last field and one of all the others. -/
theorem builds_seq_of {f : Record (α → β)} {x : Record α} {part : α → Prop} {holds : β → Prop}
    (last : x.Builds part) (builds : f.Builds fun g => ∀ a, part a → holds (g a)) :
    (f.seq x).Builds holds := by
  intro find b built
  obtain ⟨g, a, first, second, rfl⟩ := of_seq_build built
  exact builds find g first a (last find a second)

theorem decode_gives {record : Record α} {holds : α → Prop} (builds : record.Builds holds)
    (what : String) (length : Length) : Gives (record.decode what length) holds := by
  intro t a decoded
  obtain ⟨find, built, -⟩ := decode_fields decoded
  exact builds find a built

end Record

end Json

/-! ### What the server's documents give -/

namespace Wire

open Json (Gives)
open Json.Record (defaulted builds_field builds_pure builds_seq builds_seq_of decode_gives)

def Licence.Fits (m : Licence) : Prop := m.capacityBytes < Word.limit 64

def Cluster.Fits (m : Cluster) : Prop := m.licence.Fits

def Deployment.Fits (m : Deployment) : Prop := m.inode < Word.limit 32

structure Volume.Fits (m : Volume) : Prop where
  sizeBytes : m.sizeBytes < Word.limit 64
  inode : m.inode < Word.limit 32
  master : ∀ d ∈ m.master, d.Fits
  replicas : ∀ ds ∈ m.replicas, ∀ d ∈ ds, d.Fits

theorem word64_builds (name : String) :
    (defaulted name Json.Decode.word64 0).Builds fun n => n < Word.limit 64 :=
  builds_field (Json.Decode.natural_gives _ _) (by decide)

theorem word32_builds (name : String) :
    (defaulted name Json.Decode.word32 0).Builds fun n => n < Word.limit 32 :=
  builds_field (Json.Decode.natural_gives _ _) (by decide)

theorem toLicence_fits : Gives toLicence Licence.Fits := by
  refine decode_gives ?_ _ _
  refine builds_seq ?_
  refine builds_seq ?_
  refine builds_seq_of (word64_builds _) ?_
  refine builds_seq ?_
  refine builds_seq ?_
  exact builds_pure fun _ _ _ small _ _ => small

theorem toCluster_fits : Gives toCluster Cluster.Fits := by
  have licence : (defaulted "licence" toLicence Licence.empty).Builds Licence.Fits :=
    builds_field toLicence_fits (by decide : 0 < Word.limit 64)
  refine decode_gives ?_ _ _
  iterate 8 refine builds_seq ?_
  refine builds_seq_of licence ?_
  refine builds_seq ?_
  exact builds_pure fun _ _ fits _ _ _ _ _ _ _ _ => fits

theorem toDeployment_fits : Gives toDeployment Deployment.Fits := by
  refine decode_gives ?_ _ _
  refine builds_seq ?_
  refine builds_seq ?_
  refine builds_seq_of (word32_builds _) ?_
  refine builds_seq ?_
  refine builds_seq ?_
  exact builds_pure fun _ _ _ small _ _ => small

theorem toVolume_fits : Gives toVolume Volume.Fits := by
  have deployments := Json.Decode.list_gives toDeployment_fits
  have master : (Json.Record.optional "master" toDeployment).Builds fun o =>
      ∀ d ∈ o, d.Fits :=
    builds_field (Json.Decode.option_gives toDeployment_fits) fun _ here => nomatch here
  have replicas : (Json.Record.optional "replicas" (Json.Decode.list toDeployment)).Builds fun o =>
      ∀ ds ∈ o, ∀ d ∈ ds, d.Fits :=
    builds_field (Json.Decode.option_gives deployments) fun _ here => nomatch here
  refine decode_gives ?_ _ _
  iterate 3 refine builds_seq ?_
  refine builds_seq_of (word64_builds _) ?_
  refine builds_seq_of replicas ?_
  refine builds_seq_of master ?_
  refine builds_seq_of (word32_builds _) ?_
  iterate 7 refine builds_seq ?_
  exact builds_pure fun _ _ _ _ _ _ _ _ inode _ master _ replicas _ size _ _ _ =>
    ⟨size, inode, master, replicas⟩

/-! ### What resources are made of -/

theorem all_makes {M R : Type} {resource : M → Except TransportFault R} {fits : M → Prop}
    {holds : R → Prop} (makes : ∀ m r, fits m → resource m = .ok r → holds r) :
    ∀ ms rs, (∀ m ∈ ms, fits m) → all resource ms = .ok rs → ∀ r ∈ rs, holds r
  | [], rs, _, made, r, here => by
    cases made
    cases here
  | m :: rest, rs, fits, made, r, here => by
    obtain ⟨fit, fits⟩ := List.forall_mem_cons.mp fits
    obtain ⟨first, one, made⟩ := of_bind_ok made
    obtain ⟨more, others, made⟩ := of_bind_ok made
    cases made
    rcases List.mem_cons.mp here with rfl | here
    · exact makes m r fit one
    · exact all_makes makes rest more fits others r here

theorem Cluster.resource_fits (m : Cluster) (c : StorageControl.Cluster) (fits : m.Fits)
    (made : m.resource = .ok c) : c.Fits := by
  obtain ⟨_, -, made⟩ := of_bind_ok made
  obtain ⟨_, -, made⟩ := of_bind_ok made
  cases made
  exact fits

theorem Deployment.resource_fits (m : Deployment) (d : StorageControl.Deployment)
    (fits : m.Fits) (made : m.resource = .ok d) : d.Fits := by
  obtain ⟨_, -, made⟩ := of_bind_ok made
  obtain ⟨_, -, made⟩ := of_bind_ok made
  cases made
  exact fits

theorem Volume.resource_fits (m : Volume) (v : StorageControl.Volume) (fits : m.Fits)
    (made : m.resource = .ok v) : v.Fits := by
  have listed : ∀ d ∈ m.replicas.getD [], d.Fits := by
    cases replicas : m.replicas with
    | none => exact fun _ here => nomatch here
    | some ds => exact fits.replicas ds replicas
  simp only [Volume.resource] at made
  split at made
  all_goals
    obtain ⟨master, one, made⟩ := of_bind_ok made
    obtain ⟨replicas, others, made⟩ := of_bind_ok made
    obtain ⟨_, -, made⟩ := of_bind_ok made
    obtain ⟨_, -, made⟩ := of_bind_ok made
    obtain ⟨_, -, made⟩ := of_bind_ok made
    cases made
    have replicas := all_makes Deployment.resource_fits _ _ listed others
    refine ⟨fits.sizeBytes, fits.inode, fun d here => ?_, replicas⟩
    obtain rfl : master = some d := here
  next => cases one
  next =>
    obtain ⟨_, made, same⟩ := of_map_ok one
    cases same
    exact Deployment.resource_fits _ d (fits.master _ ‹_›) made

/-- What is read fits if the documents and the resources made of them do. -/
theorem read_makes {M R : Type} {decode : Decoder M} {resource : M → Except TransportFault R}
    {fits : M → Prop} {holds : R → Prop} (gives : Gives decode fits)
    (makes : ∀ m r, fits m → resource m = .ok r → holds r) {body : List Text.Rune} {r : R}
    (got : read decode resource body = .ok r) : holds r := by
  obtain ⟨m, decoded, made⟩ := of_read_ok got
  exact makes m r (gives _ m decoded) made

theorem readAll_makes {M R : Type} {decode : Decoder M} {resource : M → Except TransportFault R}
    {fits : M → Prop} {holds : R → Prop} (gives : Gives decode fits)
    (makes : ∀ m r, fits m → resource m = .ok r → holds r) {body : List Text.Rune} {rs : List R}
    (got : readAll decode resource body = .ok rs) : ∀ r ∈ rs, holds r :=
  read_makes (Json.Decode.list_gives gives) (all_makes makes) got

end Wire

end StorageControl
