import Mathlib.Data.List.Nodup
import StorageControl.Proofs.Selection

/-! Strict selections.

A selection answers every key that is asked for, in the order of the request, or fails with
the first key that has no answer. By name a key has an answer if one resource alone bears
the name; by identifier the answer is the last resource that has it.
-/

set_option autoImplicit false

namespace StorageControl.Selection

variable {R : Type} [Named R]

/-! ### By name -/

/-- The resources of a listing that bear a name. -/
def bearers (items : List R) (name : String) : List R := items.filter (Named.name · == name)

theorem byName_eq_ok_iff {items : List R} {name : String} {r : R} :
    byName items name = .ok r ↔ bearers items name = [r] := by
  unfold byName bearers
  split
  next none => simp [none]
  next only => simp [only]
  next several _ => simp_all

theorem noName_eq (name : String) :
    noName R name = .refused .notFound
      (some ((Named.kind R).name ++ " with name " ++ name ++ " not found")) := by
  have joined : " with name " = " " ++ "with name " := by decide
  rw [noName, ApiFault.resourceNotFound, joined]
  simp only [String.append_assoc]

/-- A name is refused that nothing bears or that several resources share. -/
theorem byName_eq_error_iff {items : List R} {name : String} {fault : ApiFault} :
    byName items name = .error fault ↔
      bearers items name = [] ∧ fault = .refused .notFound
        (some ((Named.kind R).name ++ " with name " ++ name ++ " not found")) ∨
      2 ≤ (bearers items name).length ∧
        fault = .ambiguousName (Named.kind R) name (bearers items name).length := by
  rw [← noName_eq]
  unfold byName bearers
  cases items.filter (Named.name · == name) with
  | nil => simp [eq_comm]
  | cons first others =>
    cases others with
    | nil => simp
    | cons second others => simp [eq_comm]

theorem exists_byName_eq_ok_iff {items : List R} {name : String} :
    (∃ r, byName items name = .ok r) ↔ (bearers items name).length = 1 := by
  simp only [byName_eq_ok_iff, List.length_eq_one_iff]

/-- A selection by names is one lookup after the other, up to the first that fails: it has one
resource for each name exactly if every name is borne by exactly one, and otherwise the first
name that is not is told, with the number of its bearers if it has several. -/
theorem byNames_as_lookups (items : List R) {names : List String} (asked : names ≠ []) :
    byNames items [] = .ok items ∧
    byNames items names = names.mapM (byName items) ∧
    ((∃ found, byNames items names = .ok found) ↔
      ∀ name ∈ names, (bearers items name).length = 1) ∧
    (∀ found, byNames items names = .ok found ↔
      List.Forall₂ (fun name r => bearers items name = [r]) names found) ∧
    ∀ fault, byNames items names = .error fault ↔
      ∃ before name after, names = before ++ name :: after ∧
        (∀ earlier ∈ before, (bearers items earlier).length = 1) ∧
        (bearers items name = [] ∧ fault = .refused .notFound
            (some ((Named.kind R).name ++ " with name " ++ name ++ " not found")) ∨
          2 ≤ (bearers items name).length ∧
            fault = .ambiguousName (Named.kind R) name (bearers items name).length) := by
  have scanned := byNames_eq_mapM items asked
  refine ⟨rfl, scanned, ?_, fun found => ?_, fun fault => ?_⟩
  · simp only [scanned, exists_mapM_eq_ok_iff, exists_byName_eq_ok_iff]
  · simp only [scanned, mapM_eq_ok_iff, byName_eq_ok_iff]
  · simp only [scanned, mapM_eq_error_iff, exists_byName_eq_ok_iff, byName_eq_error_iff]

/-- A name that is asked for twice, one that two resources share before one that is nowhere,
and one that is nowhere before one that they share. -/
theorem lookups_of_shared_name :
    let space (id name : String) (named : id ≠ "") : Namespace :=
      ⟨⟨⟨id, named⟩⟩, name, .empty, none, none, ⟨⟨"1", by decide⟩⟩⟩
    let disk := space "b" "disk" (by decide)
    let items := [space "a" "log" (by decide), disk, space "c" "log" (by decide)]
    byNames items ["disk", "disk"] = .ok [disk, disk] ∧
    byNames items ["disk", "log", "swap"] = .error (.ambiguousName .nspace "log" 2) ∧
    byNames items ["disk", "swap", "log"] =
      .error (.refused .notFound (some "namespace with name swap not found")) := by
  intro space disk items
  obtain ⟨-, -, -, found, -⟩ := byNames_as_lookups items (show ["disk", "disk"] ≠ [] by simp)
  obtain ⟨-, -, -, -, shared⟩ :=
    byNames_as_lookups items (show ["disk", "log", "swap"] ≠ [] by simp)
  obtain ⟨-, -, -, -, missing⟩ :=
    byNames_as_lookups items (show ["disk", "swap", "log"] ≠ [] by simp)
  refine ⟨(found _).mpr (.cons rfl (.cons rfl .nil)), (shared _).mpr ?_, (missing _).mpr ?_⟩
  · exact ⟨["disk"], "log", ["swap"], rfl, by decide, .inr ⟨Nat.le_refl 2, rfl⟩⟩
  · exact ⟨["disk"], "swap", ["log"], rfl, by decide, .inl ⟨rfl, by decide⟩⟩

/-! ### By identifier -/

/-- The last resource of a listing that has an identifier. -/
def IsLast (items : List R) (id : Id (Named.subject R)) (r : R) : Prop :=
  Named.id r = id ∧ ∃ earlier later, items = earlier ++ r :: later ∧
    ∀ other ∈ later, Named.id other ≠ id

theorem byId_eq_ok_iff {items : List R} {id : Id (Named.subject R)} {r : R} :
    byId items id = .ok r ↔ IsLast items id r := by
  have search : byId items id = .ok r ↔
      items.reverse.find? (fun r => Named.id r == id) = some r := by
    unfold byId
    split
    next found => rw [found, Except.ok.injEq, Option.some.injEq]
    next none => simp only [none, reduceCtorEq]
  rw [search, List.find?_eq_some_iff_append, IsLast]
  simp only [beq_iff_eq, Bool.not_eq_true', beq_eq_false_iff_ne]
  refine and_congr_right fun _ => ?_
  constructor
  · rintro ⟨later, earlier, split, others⟩
    refine ⟨earlier.reverse, later.reverse, ?_, by simpa using others⟩
    simpa using congrArg List.reverse split
  · rintro ⟨earlier, later, rfl, others⟩
    exact ⟨later.reverse, earlier.reverse, by simp, by simpa using others⟩

theorem noId_eq (id : String) :
    noId R id = .refused .notFound
      (some ((Named.kind R).name ++ " with ID " ++ id ++ " not found")) := by
  have joined : " with ID " = " " ++ "with ID " := by decide
  rw [noId, ApiFault.resourceNotFound, joined]
  simp only [String.append_assoc]

theorem byId_eq_error_iff {items : List R} {id : Id (Named.subject R)} {fault : ApiFault} :
    byId items id = .error fault ↔
      (∀ r ∈ items, Named.id r ≠ id) ∧ fault = .refused .notFound
        (some ((Named.kind R).name ++ " with ID " ++ id.text ++ " not found")) := by
  rw [← noId_eq]
  unfold byId
  split
  next r found =>
    have among : r ∈ items := List.mem_reverse.mp (List.mem_of_find?_eq_some found)
    have named : Named.id r = id := by simpa using List.find?_some found
    simp only [reduceCtorEq, false_iff, not_and]
    exact fun missing => absurd named (missing r among)
  next none =>
    have missing : ∀ r ∈ items, Named.id r ≠ id := by simpa using none
    rw [Except.error.injEq, and_iff_right missing, eq_comm]

theorem exists_byId_eq_ok_iff {items : List R} {id : Id (Named.subject R)} :
    (∃ r, byId items id = .ok r) ↔ ∃ r ∈ items, Named.id r = id := by
  cases result : byId items id with
  | ok r =>
    obtain ⟨named, earlier, later, rfl, -⟩ := byId_eq_ok_iff.mp result
    have here : r ∈ earlier ++ r :: later := List.mem_append_right _ List.mem_cons_self
    exact iff_of_true ⟨r, rfl⟩ ⟨r, here, named⟩
  | error fault =>
    obtain ⟨missing, -⟩ := byId_eq_error_iff.mp result
    simpa using missing

/-- A selection by identifiers succeeds exactly if every identifier is there. It has the last
resource with each, in the order of the request; otherwise the first identifier that nothing
has is told. A listing with different identifiers may come in any order. -/
theorem byIds_strict (items : List R) {ids : List (Id (Named.subject R))} (asked : ids ≠ []) :
    ((∃ found, byIds items ids = .ok found) ↔ ∀ id ∈ ids, ∃ r ∈ items, Named.id r = id) ∧
    (∀ found : List R, byIds items ids = .ok found → found.length = ids.length ∧
      ∀ (i : Nat) id, ids[i]? = some id → ∃ r, found[i]? = some r ∧ IsLast items id r) ∧
    (∀ fault, byIds items ids = .error fault ↔
      ∃ before id after, ids = before ++ id :: after ∧
        (∀ earlier ∈ before, ∃ r ∈ items, Named.id r = earlier) ∧
        (∀ r ∈ items, Named.id r ≠ id) ∧ fault = .refused .notFound
          (some ((Named.kind R).name ++ " with ID " ++ id.text ++ " not found"))) ∧
    ((items.map Named.id).Nodup → ∀ others, items.Perm others →
      byIds others ids = byIds items ids) := by
  have searched := byIds_eq_mapM items asked
  refine ⟨?_, fun found ok => ?_, fun fault => ?_, fun distinct others perm => ?_⟩
  · simp only [searched, exists_mapM_eq_ok_iff, exists_byId_eq_ok_iff]
  · rw [searched, mapM_eq_ok_iff] at ok
    refine ⟨ok.length_eq.symm, fun i id asked => ?_⟩
    obtain ⟨inside, rfl⟩ := List.getElem?_eq_some_iff.mp asked
    have within : i < found.length := ok.length_eq ▸ inside
    exact ⟨found[i], List.getElem?_eq_getElem within, byId_eq_ok_iff.mp (ok.get inside within)⟩
  · simp only [searched, mapM_eq_error_iff, exists_byId_eq_ok_iff, byId_eq_error_iff]
  · have tells : Tells items ids := fun a among b also _ same =>
      List.inj_on_of_nodup_map distinct among also same
    exact (byIds_of_perm perm asked tells).symm

/-- An identifier that two resources have, and one that nothing has before another one. -/
theorem selection_of_repeated_id :
    let id (text : String) (named : text ≠ "") : NamespaceId := ⟨⟨text, named⟩⟩
    let a := id "a" (by decide)
    let b := id "b" (by decide)
    let space (id : NamespaceId) (name : String) : Namespace :=
      ⟨id, name, .empty, none, none, ⟨⟨"1", by decide⟩⟩⟩
    let items := [space a "old", space b "disk", space a "new"]
    (∃ found, byIds items [a, b, a] = .ok found ∧ found.length = 3 ∧
      ∃ r, found[2]? = some r ∧ IsLast items a r) ∧
    byIds items [b, id "c" (by decide), id "d" (by decide)] =
      .error (.refused .notFound (some "namespace with ID c not found")) ∧
    byIds [space b "disk", space a "new"] [a] = byIds [space a "new", space b "disk"] [a] := by
  intro id a b space items
  obtain ⟨answered, found, -, -⟩ := byIds_strict items (show [a, b, a] ≠ [] by simp)
  obtain ⟨-, -, failed, -⟩ :=
    byIds_strict items (show [b, id "c" (by decide), id "d" (by decide)] ≠ [] by simp)
  obtain ⟨-, -, -, ordered⟩ :=
    byIds_strict [space a "new", space b "disk"] (show [a] ≠ [] by simp)
  obtain ⟨rs, ok⟩ := answered.mpr (by decide)
  obtain ⟨count, each⟩ := found rs ok
  refine ⟨⟨rs, ok, count, each 2 a rfl⟩, (failed _).mpr ?_, ordered (by decide) _ (.swap ..)⟩
  exact ⟨[b], id "c" (by decide), _, rfl, by decide, by decide, by decide⟩

end StorageControl.Selection
