import Mathlib.Data.List.Nodup
import Mathlib.Data.List.Perm.Basic
import StorageControl.Proofs.Selection
import StorageControl.Proofs.Telling

/-! Addressing by name and by identifier.

A command by names looks them up first; the same command by identifiers is there at once.
When every name is held by one resource alone, both come to the same change, which takes
its course a little later in one of them, or to the same document. Neither changes anything
on its way.
-/

set_option autoImplicit false

namespace StorageControl

variable {σ α β R : Type}

/-! ### Names and identifiers in a listing -/

section Listings

variable [Named R] {items others : List R} {names : List String}
  {ids : List (Id (Named.subject R))}

/-- A name is held by one resource alone, and this is its identifier. -/
def Holds (items : List R) (name : String) (id : Id (Named.subject R)) : Prop :=
  ∃ r, items.filter (Named.name · == name) = [r] ∧ Named.id r = id

/-- Names stand for identifiers in a listing that has no identifier twice. -/
structure StandFor (items : List R) (names : List String) (ids : List (Id (Named.subject R))) :
    Prop where
  distinct : (items.map Named.id).Nodup
  held : List.Forall₂ (Holds items) names ids

theorem byId_of_distinct (distinct : (items.map Named.id).Nodup) {r : R} (member : r ∈ items) :
    Selection.byId items (Named.id r) = .ok r := by
  rw [Selection.byId]
  cases found : items.reverse.find? fun other => Named.id other == Named.id r with
  | none =>
    have missing := List.find?_eq_none.mp found r (List.mem_reverse.mpr member)
    exact absurd (beq_self_eq_true _) missing
  | some other =>
    have same : Named.id other = Named.id r := by simpa using List.find?_some found
    have among : other ∈ items := List.mem_reverse.mp (List.mem_of_find?_eq_some found)
    rw [List.inj_on_of_nodup_map distinct among member same]

theorem Holds.picks (distinct : (items.map Named.id).Nodup) {name : String}
    {id : Id (Named.subject R)} (holds : Holds items name id) :
    ∃ r ∈ items, Named.id r = id ∧ Selection.byName items name = .ok r ∧
      Selection.byId items id = .ok r := by
  obtain ⟨r, alone, rfl⟩ := holds
  have member : r ∈ items := List.mem_of_mem_filter (alone ▸ List.mem_singleton_self r)
  refine ⟨r, member, rfl, ?_, byId_of_distinct distinct member⟩
  rw [Selection.byName, alone]

theorem StandFor.select (stand : StandFor items names ids) (nonempty : names ≠ []) :
    ∃ picked, Selection.byNames items names = .ok picked ∧
      Selection.byIds items ids = .ok picked := by
  obtain ⟨distinct, held⟩ := stand
  have other : ids ≠ [] := by
    rintro rfl
    exact nonempty (List.forall₂_nil_right_iff.mp held)
  rw [Selection.byNames_eq_mapM items nonempty, Selection.byIds_eq_mapM items other]
  clear nonempty other
  induction held with
  | nil => exact ⟨[], rfl, rfl⟩
  | cons holds _ ih =>
    obtain ⟨r, -, -, byName, byId⟩ := holds.picks distinct
    obtain ⟨picked, byNames, byIds⟩ := ih
    refine ⟨r :: picked, ?_, ?_⟩
    · rw [List.mapM_cons, byName, byNames]
      rfl
    · rw [List.mapM_cons, byId, byIds]
      rfl

theorem StandFor.single {name : String} {id : Id (Named.subject R)}
    (stand : StandFor items [name] [id]) :
    ∃ r ∈ items, Named.id r = id ∧ Selection.byName items name = .ok r := by
  obtain ⟨distinct, held⟩ := stand
  obtain ⟨holds, -⟩ := List.forall₂_cons.mp held
  obtain ⟨r, member, named, byName, -⟩ := holds.picks distinct
  exact ⟨r, member, named, byName⟩

theorem StandFor.of_perm (stand : StandFor items names ids) (perm : items.Perm others) :
    StandFor others names ids := by
  refine ⟨(perm.map Named.id).nodup_iff.mp stand.distinct, stand.held.imp ?_⟩
  rintro name id ⟨r, alone, named⟩
  have bearers := perm.filter (Named.name · == name)
  rw [alone] at bearers
  exact ⟨r, (List.singleton_perm.mp bearers).symm, named⟩

/-- Names stand for identifiers in what a listing brings. -/
def Resolves (listing : Option (Except TransportFault (List R))) (names : List String)
    (ids : List (Id (Named.subject R))) : Prop :=
  ∃ items, listing = some (.ok items) ∧ StandFor items names ids

end Listings

/-! ### What a server tells a command -/

/-- Reading a resource brings what its listing has. -/
structure Consistent (told : (c : Call) → Option c.Reply) : Prop where
  node : ∀ nodes, told .listNodes = some (.ok nodes) → ∀ node ∈ nodes,
    told (.getNode node.id) = some (.ok node)
  nspace : ∀ namespaces, told .listNamespaces = some (.ok namespaces) → ∀ nspace ∈ namespaces,
    told (.getNamespace nspace.id) = some (.ok nspace)
  user : ∀ users, told .listUsers = some (.ok users) → ∀ user ∈ users,
    told (.getUser user.id) = some (.ok user)
  volume : ∀ namespaces, told .listNamespaces = some (.ok namespaces) →
    ∀ nspace ∈ namespaces, ∀ volumes, told (.listVolumes nspace.id) = some (.ok volumes) →
      ∀ volume ∈ volumes, told (.getVolume nspace.id volume.id) = some (.ok volume)

def listed : Option (Except TransportFault (List R)) → List R
  | some (.ok items) => items
  | _ => []

/-- The volumes of some namespaces, as far as their listings bring any. -/
def volumesOf (told : (c : Call) → Option c.Reply) (scopes : List NamespaceId) : List Volume :=
  scopes.flatMap fun scope => listed (told (.listVolumes scope))

/-- The volumes of all namespaces, if these are told. -/
def allListed (told : (c : Call) → Option c.Reply) : Option (Except TransportFault (List Volume)) :=
  (told .listNamespaces).map (Except.map fun namespaces =>
    volumesOf told (namespaces.map Namespace.id))

/-- A command by names, in its namespace, and the one by the identifiers for which they
stand. -/
inductive Addresses (told : (c : Call) → Option c.Reply) :
    Option String → Command → Option String → Command → Prop where
  | getNode {scope scope' : Option String} {name : String} {id : NodeId}
      (node : Resolves (told .listNodes) [name] [id]) :
      Addresses told scope (.getNode name) scope' (.getNode id.text)
  | getNodes {scope scope' : Option String} {names : List String} {ids : List NodeId}
      (nonempty : names ≠ []) (nodes : Resolves (told .listNodes) names ids) :
      Addresses told scope (.getNodes names) scope' (.getNodes (ids.map Id.text))
  | getNamespace {scope scope' : Option String} {name : String} {id : NamespaceId}
      (nspace : Resolves (told .listNamespaces) [name] [id]) :
      Addresses told scope (.getNamespace name) scope' (.getNamespace id.text)
  | getNamespaces {scope scope' : Option String} {names : List String} {ids : List NamespaceId}
      (nonempty : names ≠ []) (namespaces : Resolves (told .listNamespaces) names ids) :
      Addresses told scope (.getNamespaces names) scope' (.getNamespaces (ids.map Id.text))
  | getUser {scope scope' : Option String} {name : String} {id : UserId}
      (user : Resolves (told .listUsers) [name] [id]) :
      Addresses told scope (.getUser name) scope' (.getUser id.text)
  | getUsers {scope scope' : Option String} {names : List String} {ids : List UserId}
      (nonempty : names ≠ []) (users : Resolves (told .listUsers) names ids) :
      Addresses told scope (.getUsers names) scope' (.getUsers (ids.map Id.text))
  | getVolume {scope name : String} {space : NamespaceId} {id : VolumeId}
      (nspace : Resolves (told .listNamespaces) [scope] [space])
      (volume : Resolves (told (.listVolumes space)) [name] [id]) :
      Addresses told (some scope) (.getVolume name) (some space.text) (.getVolume id.text)
  | getVolumes {scope : String} {space : NamespaceId} {names : List String} {ids : List VolumeId}
      (nonempty : names ≠ []) (nspace : Resolves (told .listNamespaces) [scope] [space])
      (volumes : Resolves (told (.listVolumes space)) names ids) :
      Addresses told (some scope) (.getVolumes names) (some space.text)
        (.getVolumes (ids.map Id.text))
  | getAllVolumes {names : List String} {ids : List VolumeId} (nonempty : names ≠ [])
      (volumes : Resolves (allListed told) names ids) :
      Addresses told none (.getVolumes names) none (.getVolumes (ids.map Id.text))
  | createVolume {scope : String} {space : NamespaceId} (name description : String) (size : Nat)
      (filesystem : Filesystem) (labels : List String) (asyncMax : Option Span)
      (nspace : Resolves (told .listNamespaces) [scope] [space]) :
      Addresses told (some scope) (.createVolume name description size filesystem labels asyncMax)
        (some space.text) (.createVolume name description size filesystem labels asyncMax)
  | createNamespace {scope scope' : Option String} (name : String) (labels : List String) :
      Addresses told scope (.createNamespace name labels) scope' (.createNamespace name labels)
  | createUser {scope scope' : Option String} (username password : String) (isAdmin : Bool)
      (groups : List String) :
      Addresses told scope (.createUser username password isAdmin groups) scope'
        (.createUser username password isAdmin groups)
  | deleteVolume {scope name : String} {space : NamespaceId} {id : VolumeId}
      (version : Option String) (asyncMax : Option Span)
      (nspace : Resolves (told .listNamespaces) [scope] [space])
      (volume : Resolves (told (.listVolumes space)) [name] [id]) :
      Addresses told (some scope) (.deleteVolume name version asyncMax) (some space.text)
        (.deleteVolume id.text version asyncMax)
  | deleteNamespace {scope scope' : Option String} {name : String} {id : NamespaceId}
      (version : Option String) (nspace : Resolves (told .listNamespaces) [name] [id]) :
      Addresses told scope (.deleteNamespace name version) scope'
        (.deleteNamespace id.text version)
  | deleteUser {scope scope' : Option String} {name : String} {id : UserId}
      (version : Option String) (user : Resolves (told .listUsers) [name] [id]) :
      Addresses told scope (.deleteUser name version) scope' (.deleteUser id.text version)
  | setReplicas {scope name : String} {space : NamespaceId} {id : VolumeId} (replicas : Nat)
      (version : Option String) (nspace : Resolves (told .listNamespaces) [scope] [space])
      (volume : Resolves (told (.listVolumes space)) [name] [id]) :
      Addresses told (some scope) (.setReplicas name replicas version) (some space.text)
        (.setReplicas id.text replicas version)
  | detachVolume {scope name : String} {space : NamespaceId} {id : VolumeId}
      (version : Option String) (nspace : Resolves (told .listNamespaces) [scope] [space])
      (volume : Resolves (told (.listVolumes space)) [name] [id]) :
      Addresses told (some scope) (.detachVolume name version) (some space.text)
        (.detachVolume id.text version)

/-! ### Looking up -/

namespace Procedure

/-- A procedure comes to another by operations of one call each that only read. -/
inductive Looks (told : (c : Call) → Option c.Reply) : Procedure α → Procedure α → Prop where
  | here (procedure : Procedure α) : Looks told procedure procedure
  | look {β : Type} {operation : Operation β} {next : Except ApiFault β → Procedure α} {c : Call}
      {heard : c.Reply → Program β} {reply : c.Reply} {result : Except ApiFault β}
      {later : Procedure α} (program : operation.program = .call c heard)
      (get : c.route.method = .get) (brings : told c = some reply)
      (ends : heard reply = .done result) (rest : Looks told (next result) later) :
      Looks told (.perform operation next) later

variable {told : (c : Call) → Option c.Reply} {p p' q : Procedure α}

theorem Looks.trans {middle : Procedure α} (first : p.Looks told middle)
    (second : middle.Looks told q) : p.Looks told q := by
  induction first with
  | here => exact second
  | look program get brings ends _ ih => exact .look program get brings ends (ih second)

section Asking

variable {operation : Operation β} {next : β → Procedure α} {c : Call}
  {select : c.Answer → Except ApiFault β} {answer : c.Answer} {b : β}

theorem looks_perform_or {failure : ApiFault → Failure}
    (program : operation.program = .ask c fun a => .done (select a))
    (get : c.route.method = .get) (brings : told c = some (.ok answer))
    (picks : select answer = .ok b) (rest : (next b).Looks told q) :
    (perform operation fun
      | .ok b => next b
      | .error fault => .done (.error (failure fault))).Looks told q := by
  have ends : Program.done (select answer) = .done (.ok b) := congrArg Program.done picks
  exact .look program get brings ends rest

theorem looks_ask (program : operation.program = .ask c fun a => .done (select a))
    (get : c.route.method = .get) (brings : told c = some (.ok answer))
    (picks : select answer = .ok b) (rest : (next b).Looks told q) :
    (ask operation next).Looks told q :=
  looks_perform_or program get brings picks rest

theorem looks_askWithin {activity : String}
    (program : operation.program = .ask c fun a => .done (select a))
    (get : c.route.method = .get) (brings : told c = some (.ok answer))
    (picks : select answer = .ok b) (rest : (next b).Looks told q) :
    (askWithin activity operation next).Looks told q :=
  looks_perform_or program get brings picks rest

end Asking

/-- Two procedures come to one by reads. One of them is there at once, or what they come to
is over. -/
inductive Meets (told : (c : Call) → Option c.Reply) (p p' : Procedure α) : Prop where
  | change (looks : p.Looks told p')
  | reading (result : Except Failure α) (looks : p.Looks told (.done result))
      (looks' : p'.Looks told (.done result))

theorem Meets.after {middle : Procedure α} (looks : p.Looks told middle)
    (meets : Meets told middle p') : Meets told p p' := by
  cases meets with
  | change later => exact .change (looks.trans later)
  | reading result later looks' => exact .reading result (looks.trans later) looks'

end Procedure

section Arguments

open Procedure (Looks looks_ask looks_askWithin)

variable {told : (c : Call) → Option c.Reply} {o : Options} {q : Procedure α} {subject : Subject}

theorem check_id (kind : String) (id : Id subject) (next : Id subject → Procedure α) :
    Procedure.check (Argument.id kind id.text) next = next id := by
  rw [Argument.id, Id.ofText?_text]
  rfl

theorem check_ids (kind : String) (ids : List (Id subject))
    (next : List (Id subject) → Procedure α) :
    Procedure.check (Argument.ids kind (ids.map Id.text)) next = next ids := by
  have read : Argument.ids kind (ids.map Id.text) = .ok ids := by
    induction ids with
    | nil => rfl
    | cons id rest ih =>
      rw [Argument.ids] at ih ⊢
      rw [List.map_cons, List.mapM_cons, Argument.id, Id.ofText?_text, ih]
      rfl
  rw [read]
  rfl

theorem withScope_of_some {scope : String} (given : o.scope = some scope)
    (next : NamespaceId → Procedure α) : o.withScope next = o.withNamespace scope next := by
  rw [Options.withScope, Options.requiredScope, given]
  rfl

theorem withNamespace_of_ids (byIds : o.useIds = true) (space : NamespaceId)
    (next : NamespaceId → Procedure α) : o.withNamespace space.text next = next space := by
  rw [Options.withNamespace, if_pos byIds, check_id]

theorem withVolume_of_ids (byIds : o.useIds = true) (space : NamespaceId) (id : VolumeId)
    (next : VolumeId → Procedure α) : o.withVolume space id.text next = next id := by
  rw [Options.withVolume, if_pos byIds, check_id]

theorem withUser_of_ids (byIds : o.useIds = true) (id : UserId) (next : UserId → Procedure α) :
    o.withUser id.text next = next id := by
  rw [Options.withUser, if_pos byIds, check_id]

variable (byNames : o.useIds = false)
include byNames

theorem looks_withNamespace {name : String} {space : NamespaceId}
    (resolves : Resolves (told .listNamespaces) [name] [space]) {next : NamespaceId → Procedure α}
    (rest : (next space).Looks told q) : (o.withNamespace name next).Looks told q := by
  obtain ⟨namespaces, listed, stand⟩ := resolves
  obtain ⟨nspace, -, rfl, found⟩ := stand.single
  rw [Options.withNamespace, if_neg (by simp [byNames])]
  exact looks_ask rfl rfl listed found rest

theorem looks_withVolume {name : String} {space : NamespaceId} {id : VolumeId}
    (resolves : Resolves (told (.listVolumes space)) [name] [id]) {next : VolumeId → Procedure α}
    (rest : (next id).Looks told q) : (o.withVolume space name next).Looks told q := by
  obtain ⟨volumes, listed, stand⟩ := resolves
  obtain ⟨volume, -, rfl, found⟩ := stand.single
  rw [Options.withVolume, if_neg (by simp [byNames])]
  exact looks_askWithin rfl rfl listed found rest

theorem looks_withUser {name : String} {id : UserId}
    (resolves : Resolves (told .listUsers) [name] [id]) {next : UserId → Procedure α}
    (rest : (next id).Looks told q) : (o.withUser name next).Looks told q := by
  obtain ⟨users, listed, stand⟩ := resolves
  obtain ⟨user, -, rfl, found⟩ := stand.single
  rw [Options.withUser, if_neg (by simp [byNames])]
  exact looks_ask rfl rfl listed found rest

/-- Commands on a volume look up their namespace and then the volume in it. -/
theorem looks_onVolume {scope name : String} {space : NamespaceId} {id : VolumeId}
    (given : o.scope = some scope) (nspace : Resolves (told .listNamespaces) [scope] [space])
    (volume : Resolves (told (.listVolumes space)) [name] [id])
    (next : NamespaceId → VolumeId → Procedure α) :
    (o.withScope fun space => o.withVolume space name (next space)).Looks told (next space id) := by
  rw [withScope_of_some given]
  exact looks_withNamespace byNames nspace (looks_withVolume byNames volume (.here _))

omit byNames in
theorem onVolume_of_ids (byIds : o.useIds = true) {space : NamespaceId} (id : VolumeId)
    (given : o.scope = some space.text) (next : NamespaceId → VolumeId → Procedure α) :
    (o.withScope fun space => o.withVolume space id.text (next space)) = next space id := by
  rw [withScope_of_some given, withNamespace_of_ids byIds, withVolume_of_ids byIds]

end Arguments

section Commands

open Procedure (Looks Meets looks_ask)

variable {told : (c : Call) → Option c.Reply} {o p : Options}

theorem meets_check {argument : Except ConfigFault β} {next next' : β → Procedure α}
    (meets : ∀ b, Meets told (next b) (next' b)) :
    Meets told (Procedure.check argument next) (Procedure.check argument next') := by
  cases argument with
  | error fault => exact .change (.here _)
  | ok b => exact meets b

/-- A resource that is looked up in a listing, or read on its own. -/
theorem meets_of_single {operation operation' : Operation R} {c c' : Call}
    {select : c.Answer → Except ApiFault R} {select' : c'.Answer → Except ApiFault R}
    (program : operation.program = .ask c fun a => .done (select a))
    (program' : operation'.program = .ask c' fun a => .done (select' a))
    (get : c.route.method = .get) (get' : c'.route.method = .get) {answer : c.Answer}
    {answer' : c'.Answer} (brings : told c = some (.ok answer))
    (brings' : told c' = some (.ok answer')) {r : R} (picks : select answer = .ok r)
    (picks' : select' answer' = .ok r) (write : R → Json.Value) :
    Meets told (Procedure.print operation write) (Procedure.print operation' write) :=
  .reading _ (looks_ask program get brings picks (.here _))
    (looks_ask program' get' brings' picks' (.here _))

/-- Resources that are picked out of one listing, by their names or their identifiers. -/
theorem meets_of_listing [Named R] {operation operation' : Operation (List R)} {c : Call}
    {select select' : c.Answer → Except ApiFault (List R)} {names : List String}
    {ids : List (Id (Named.subject R))}
    (program : operation.program = .ask c fun a => .done (select a))
    (program' : operation'.program = .ask c fun a => .done (select' a))
    (get : c.route.method = .get) {answer : c.Answer} (brings : told c = some (.ok answer))
    {items : List R} (stand : StandFor items names ids) (nonempty : names ≠ [])
    (byNames : select answer = Selection.byNames items names)
    (byIds : select' answer = Selection.byIds items ids) (write : List R → Json.Value) :
    Meets told (Procedure.print operation write) (Procedure.print operation' write) := by
  obtain ⟨picked, picks, picks'⟩ := stand.select nonempty
  exact meets_of_single program program' get get brings brings (byNames.trans picks)
    (byIds.trans picks') write

/-- A command by names meets the one by identifiers; volumes of all namespaces apart. -/
theorem Addresses.meets {scope scope' : Option String} {command command' : Command}
    (addresses : Addresses told scope command scope' command') (consistent : Consistent told)
    (byNames : o.useIds = false) (byIds : p.useIds = true) (given : o.scope = scope)
    (given' : p.scope = scope') :
    Meets told (command.procedure o) (command'.procedure p) ∨
      ∃ names ids, names ≠ [] ∧ scope = none ∧ command = .getVolumes names ∧ scope' = none ∧
        command' = .getVolumes (ids.map Id.text) ∧ Resolves (allListed told) names ids := by
  have named : ¬o.useIds = true := by simp [byNames]
  cases addresses with
  | getAllVolumes nonempty volumes => exact .inr ⟨_, _, nonempty, rfl, rfl, rfl, rfl, volumes⟩
  | getNode node =>
    obtain ⟨nodes, listed, stand⟩ := node
    obtain ⟨node, member, rfl, found⟩ := stand.single
    rw [Command.procedure, Command.procedure, if_neg named, if_pos byIds, check_id]
    exact .inl (meets_of_single rfl rfl rfl rfl listed (consistent.node _ listed _ member) found
      rfl _)
  | getNodes nonempty nodes =>
    obtain ⟨nodes, listed, stand⟩ := nodes
    rw [Command.procedure, Command.procedure, Command.nodesProcedure, Command.nodesProcedure,
      if_neg named, if_pos byIds, check_ids]
    exact .inl (meets_of_listing rfl rfl rfl listed stand nonempty rfl rfl _)
  | getNamespace nspace =>
    obtain ⟨namespaces, listed, stand⟩ := nspace
    obtain ⟨nspace, member, rfl, found⟩ := stand.single
    rw [Command.procedure, Command.procedure, if_neg named, if_pos byIds, check_id]
    exact .inl (meets_of_single rfl rfl rfl rfl listed (consistent.nspace _ listed _ member) found
      rfl _)
  | getNamespaces nonempty namespaces =>
    obtain ⟨namespaces, listed, stand⟩ := namespaces
    rw [Command.procedure, Command.procedure, Command.namespacesProcedure,
      Command.namespacesProcedure, if_neg named, if_pos byIds, check_ids]
    exact .inl (meets_of_listing rfl rfl rfl listed stand nonempty rfl rfl _)
  | getUser user =>
    obtain ⟨users, listed, stand⟩ := user
    obtain ⟨user, member, rfl, found⟩ := stand.single
    rw [Command.procedure, Command.procedure, if_neg named, if_pos byIds, check_id]
    exact .inl (meets_of_single rfl rfl rfl rfl listed (consistent.user _ listed _ member) found
      rfl _)
  | getUsers nonempty users =>
    obtain ⟨users, listed, stand⟩ := users
    rw [Command.procedure, Command.procedure, Command.usersProcedure, Command.usersProcedure,
      if_neg named, if_pos byIds, check_ids]
    exact .inl (meets_of_listing rfl rfl rfl listed stand nonempty rfl rfl _)
  | getVolume nspace volume =>
    rw [Command.procedure, Command.procedure, withScope_of_some given, withScope_of_some given',
      withNamespace_of_ids byIds]
    refine .inl (.after (looks_withNamespace byNames nspace (.here _)) ?_)
    obtain ⟨namespaces, listed, stand⟩ := nspace
    obtain ⟨nspace, among, rfl, -⟩ := stand.single
    obtain ⟨volumes, listed', stand'⟩ := volume
    obtain ⟨volume, member, rfl, found⟩ := stand'.single
    rw [if_neg named, if_pos byIds, check_id]
    exact meets_of_single rfl rfl rfl rfl listed'
      (consistent.volume _ listed _ among _ listed' _ member) found rfl _
  | getVolumes nonempty nspace volumes =>
    rw [Command.procedure, Command.procedure, Command.volumesProcedure, Command.volumesProcedure,
      given, given']
    simp only
    rw [withNamespace_of_ids byIds]
    refine .inl (.after (looks_withNamespace byNames nspace (.here _)) ?_)
    obtain ⟨volumes, listed, stand⟩ := volumes
    rw [if_neg named, if_pos byIds, check_ids]
    exact meets_of_listing rfl rfl rfl listed stand nonempty rfl rfl _
  | createVolume name description size filesystem labels asyncMax nspace =>
    refine .inl (meets_check fun labels => ?_)
    rw [withScope_of_some given, withScope_of_some given', withNamespace_of_ids byIds]
    exact .change (looks_withNamespace byNames nspace (.here _))
  | createNamespace => exact .inl (.change (.here _))
  | createUser => exact .inl (.change (.here _))
  | deleteVolume version asyncMax nspace volume =>
    refine .inl (meets_check fun constraint => ?_)
    rw [onVolume_of_ids byIds _ given']
    exact .change (looks_onVolume byNames given nspace volume _)
  | deleteNamespace version nspace =>
    refine .inl (meets_check fun constraint => ?_)
    rw [withNamespace_of_ids byIds]
    exact .change (looks_withNamespace byNames nspace (.here _))
  | deleteUser version user =>
    refine .inl (meets_check fun constraint => ?_)
    rw [withUser_of_ids byIds]
    exact .change (looks_withUser byNames user (.here _))
  | setReplicas replicas version nspace volume =>
    refine .inl (meets_check fun constraint => ?_)
    rw [onVolume_of_ids byIds _ given']
    exact .change (looks_onVolume byNames given nspace volume _)
  | detachVolume version nspace volume =>
    refine .inl (meets_check fun constraint => ?_)
    rw [onVolume_of_ids byIds _ given']
    exact .change (looks_onVolume byNames given nspace volume _)

end Commands

/-! ### On the clock -/

open Http (Logged Network Outcome Request)
open Service (Session)

/-- Two logs that begin alike, go on with reads of their own and end alike. One of them has
no reads of its own, or nothing follows. -/
inductive Detours (begun : List (Request × Outcome)) :
    List (Request × Outcome) → List (Request × Outcome) → Prop where
  | mk {looked reads rest : List (Request × Outcome)}
      (gets : ∀ entry ∈ looked ++ reads, entry.1.method = .get) (apart : reads = [] ∨ rest = []) :
      Detours begun (begun ++ looked ++ rest) (begun ++ reads ++ rest)

theorem Detours.refl (begun rest : List (Request × Outcome)) :
    Detours begun (begun ++ rest) (begun ++ rest) := by
  have detours : Detours begun (begun ++ [] ++ rest) (begun ++ [] ++ rest) :=
    .mk (by simp) (.inl rfl)
  rwa [List.append_nil] at detours

/-- Detours leave what is to be changed. -/
theorem Detours.mutations {begun log log' : List (Request × Outcome)}
    (detours : Detours begun log log') :
    log.filter (·.1.method.isMutation) = log'.filter (·.1.method.isMutation) := by
  obtain ⟨gets, -⟩ := detours
  have none {entries : List (Request × Outcome)}
      (gets : ∀ entry ∈ entries, entry.1.method = .get) :
      entries.filter (·.1.method.isMutation) = [] := by
    refine List.filter_eq_nil_iff.mpr fun entry member => ?_
    simp [gets entry member, Http.Method.isMutation]
  obtain ⟨looked, reads⟩ := List.forall_mem_append.mp gets
  simp only [List.filter_append, none looked, none reads]

section Runs

variable {service : Service} {client : Client} {network : Network σ} {answer : Request → Outcome}
  {credential : Option Credential} {m : Machine (Session (Logged σ))}

/-- One service, used twice: what the sessions have in common is behind what they began with. -/
def Service.twice (service : Service) (answers : network.AnswersBy answer)
    (front back : List (Request × Outcome)) :
    Coupling (Session (Logged σ)) (Session (Logged σ)) where
  near := service.transport network.logging
  far := service.transport network.logging
  related s t := s.credential = t.credential ∧
    ∃ rest, s.server.log = front ++ rest ∧ t.server.log = back ++ rest
  parted _ _ := False
  same c := by
    refine ⟨fun s t related => ⟨rfl, related⟩, fun s t ⟨stored, rest, here, there⟩ => .inl ?_⟩
    obtain ⟨stored, brings, entries, added, added'⟩ :=
      Service.land_addAlike answers answers service c stored
    refine ⟨congrArg (Option.map id) brings, stored, rest ++ entries, ?_, ?_⟩
    · exact added.trans (by rw [here, List.append_assoc])
    · exact added'.trans (by rw [there, List.append_assoc])
  near_keeps _ := ⟨fun _ _ _ never => never, fun _ _ _ never => never⟩
  far_keeps _ := ⟨fun _ _ _ never => never, fun _ _ _ never => never⟩

variable (roomy : client.Roomy) (unset : m.cancelAt = none) (answers : network.AnswersBy answer)
  (stored : m.server.credential = credential)
include roomy unset answers stored

theorem Procedure.Looks.run {p q : Procedure α}
    (looks : p.Looks (service.told answer credential) q) :
    ∃ reads after, p.run client (service.transport network.logging) m =
      q.run client (service.transport network.logging) after ∧ m.ReadsOn reads after := by
  induction looks generalizing m with
  | here => exact ⟨[], m, rfl, .refl m⟩
  | look program get brings ends _ ih =>
    rw [← stored] at brings
    obtain ⟨reads, middle, performed, readsOn⟩ :=
      client.perform_reads roomy unset answers program get brings ends
    obtain ⟨more, after, ran, later⟩ :=
      ih (readsOn.cancelAt.trans unset) (readsOn.credential.trans stored)
    refine ⟨reads ++ more, after, ?_, readsOn.trans later⟩
    rw [run, performed]
    exact ran

/-- Procedures that meet have one result, and logs that differ by reads. -/
theorem Procedure.Meets.run {p p' : Procedure α}
    (meets : Meets (service.told answer credential) p p') :
    (p.run client (service.transport network.logging) m).1 =
        (p'.run client (service.transport network.logging) m).1 ∧
      Detours m.server.server.log
        (p.run client (service.transport network.logging) m).2.server.server.log
        (p'.run client (service.transport network.logging) m).2.server.server.log := by
  cases meets with
  | change looks =>
    obtain ⟨looked, after, ran, readsOn⟩ := looks.run roomy unset answers stored
    have beside : (service.twice answers m.server.server.log (m.server.server.log ++ looked)).Beside
        (after.clock - m.clock) m after := by
      refine ⟨⟨readsOn.credential.symm, [], by simp, by simp [readsOn.log]⟩, ?_, ?_⟩
      · have := readsOn.clock
        omega
      · rw [readsOn.cancelAt, unset]
        rfl
    rcases Coupling.run_procedure_agree client (.refl _ p') beside with ⟨same, ends⟩ | never
    · obtain ⟨-, rest, here, there⟩ := ends.server
      have detours : Detours m.server.server.log (m.server.server.log ++ looked ++ rest)
          (m.server.server.log ++ [] ++ rest) :=
        .mk (by simpa using readsOn.gets) (.inl rfl)
      rw [List.append_nil, ← here, ← there] at detours
      rw [ran]
      exact ⟨same.symm, detours⟩
    · exact never.elim
  | reading result looks looks' =>
    obtain ⟨looked, after, ran, readsOn⟩ := looks.run roomy unset answers stored
    obtain ⟨reads, after', ran', readsOn'⟩ := looks'.run roomy unset answers stored
    have detours : Detours m.server.server.log (m.server.server.log ++ looked ++ [])
        (m.server.server.log ++ reads ++ []) :=
      .mk (List.forall_mem_append.mpr ⟨readsOn.gets, readsOn'.gets⟩) (.inr rfl)
    rw [List.append_nil, List.append_nil, ← readsOn.log, ← readsOn'.log] at detours
    rw [ran, ran']
    exact ⟨rfl, detours⟩

/-! ### The volumes of all namespaces -/

omit roomy unset answers stored in
theorem items_ofReply (reply : Except TransportFault (List R)) :
    (ScopeOutcome.ofReply reply).items = listed (some reply) := by
  cases reply with
  | ok items => rfl
  | error fault =>
    simp only [ScopeOutcome.ofReply]
    split <;> rfl

omit roomy unset answers stored in
theorem of_collect_ok {policy : ScopePolicy} {scopes : List NamespaceId}
    {arrivals : List (Arrival R)} {aggregation : Aggregation R} (nonempty : scopes ≠ [])
    (collected : Aggregation.collect policy scopes arrivals = .ok aggregation) :
    (∀ arrival ∈ arrivals, arrival.outcome.isFinal = false) ∧
      aggregation.items = arrivals.flatMap (·.outcome.items) := by
  rw [Aggregation.collect, if_neg (by simpa using nonempty)] at collected
  split at collected
  next => cases collected
  next merged taken =>
    have clear := Aggregation.clear_of_merge taken
    rw [Aggregation.merge_of_clear _ _ clear] at taken
    rw [Aggregation.close] at collected
    split at collected
    · cases collected
    · cases collected
      cases taken
      exact ⟨clear, List.nil_append _⟩

omit roomy unset in
/-- The joint listing brings what the single listings do, in some order. -/
theorem join_perm {limits : Limits} {policy : ScopePolicy} {scopes : List NamespaceId}
    {aggregation : Aggregation Volume} {after : Machine (Session (Logged σ))}
    (joined : Machine.join limits policy scopes
      (Machine.gather (service.transport network.logging) limits scopes m).1
      (Machine.gather (service.transport network.logging) limits scopes m).2 =
        (.landed (.ok aggregation), after)) :
    (volumesOf (service.told answer credential) scopes).Perm aggregation.items := by
  have keeps : Machine.Keeps (service.transport network.logging) (fun c => c.route.method = .get)
      (fun s => s.credential = credential) :=
    ⟨fun _ _ _ held => held, fun c s get held => (service.land_reads network get s).1.trans held⟩
  obtain ⟨ends, given, arrivals, spread, -⟩ :=
    Machine.gather_arrivals keeps limits scopes (fun _ _ => rfl) m stored
  obtain ⟨collected, decided⟩ := Machine.join_landed joined
  generalize (Machine.gather (service.transport network.logging) limits scopes m).1 = g
    at arrivals spread collected decided
  cases scopes with
  | nil =>
    cases collected
    exact .rfl
  | cons first others =>
    obtain ⟨clear, items⟩ := of_collect_ok (List.cons_ne_nil first others) collected.symm
    have none : g.missing = [] := decided.resolve_left fun final => by
      obtain ⟨arrival, member, final⟩ := List.any_eq_true.mp final
      rw [clear arrival member] at final
      cases final
    -- Every listing that arrived brought what the server tells it.
    have brought : aggregation.items =
        volumesOf (service.told answer credential) (ends.map (·.task.scope)) := by
      rw [items, arrivals, volumesOf, List.flatMap_map, List.flatMap_map]
      refine List.flatMap_congr fun ending member => ?_
      obtain ⟨unseen, s, rfl, brings⟩ := given ending member
      have tells := (service.land_told answers (.listVolumes ending.task.scope) s).symm.trans brings
      rw [tells, ← items_ofReply, TaskEnd.arrival, unseen]
      rfl
    rw [none, List.append_nil] at spread
    rw [brought]
    exact (spread.flatMap_right _).symm

omit roomy unset in
/-- What picks the same of all that is told, whatever its order, comes to the same. -/
theorem run_allVolumes (policy : ScopePolicy) (limits : Limits)
    {pick pick' : List Volume → Except ApiFault α} {namespaces : List Namespace}
    (told : service.told answer credential .listNamespaces = some (.ok namespaces))
    (same : ∀ items, (volumesOf (service.told answer credential)
      (namespaces.map Namespace.id)).Perm items → pick items = pick' items) :
    Machine.run (service.transport network.logging) limits (Program.allVolumes policy pick) m =
      Machine.run (service.transport network.logging) limits
        (Program.allVolumes policy pick') m := by
  simp only [Program.allVolumes, Program.ask, Machine.run_call]
  generalize attempt : Machine.perform (service.transport network.logging) limits .listNamespaces m =
    ended
  obtain ⟨ending, after⟩ := ended
  rcases ending with reply | stop | _
  · obtain ⟨landed, -⟩ := Machine.perform_landed attempt
    have kept := (service.land_reads network (c := .listNamespaces) rfl m.server).1
    have brings := service.land_told answers .listNamespaces m.server
    rw [landed] at kept brings
    rw [stored, told] at brings
    cases brings
    simp only [Machine.goOn, Machine.run_gather]
    generalize joined : Machine.join limits policy _ _ _ = ended
    obtain ⟨ending, late⟩ := ended
    rcases ending with (fault | aggregation) | stop | _
    · rfl
    · have perm := join_perm answers (kept.trans stored) joined
      simp only [Machine.run, same _ perm]
    · rfl
    · rfl
  · rfl
  · rfl

omit roomy in
theorem perform_getAllVolumes (policy : ScopePolicy) {names : List String} {ids : List VolumeId}
    (nonempty : names ≠ [])
    (resolves : Resolves (allListed (service.told answer credential)) names ids) :
    client.perform (service.transport network.logging) (.getAllVolumesByName policy names) m =
      client.perform (service.transport network.logging) (.getAllVolumes policy ids) m := by
  obtain ⟨items, merged, stand⟩ := resolves
  obtain ⟨reply, told, listed⟩ := Option.map_eq_some_iff.mp merged
  cases reply with
  | error fault => cases listed
  | ok namespaces =>
    cases listed
    have picks (items : List Volume)
        (perm : (volumesOf (service.told answer credential)
          (namespaces.map Namespace.id)).Perm items) :
        Selection.byNames items names = Selection.byIds items ids := by
      obtain ⟨picked, byNames, byIds⟩ := (stand.of_perm perm).select nonempty
      exact byNames.trans byIds.symm
    have ran := run_allVolumes answers stored policy (client.limits m) told picks
    rw [Client.perform_of_unfired (client.unfired unset),
      Client.perform_of_unfired (client.unfired unset)]
    exact congrArg (Prod.map (client.outcome (.getAllVolumes policy ids)) id) ran

/-- A command by names and the one by the identifiers have one result, and logs that differ
by reads. -/
theorem Addresses.run {scope' : Option String} {command command' : Command} {o : Options}
    (addresses : Addresses (service.told answer credential) o.scope command scope' command')
    (consistent : Consistent (service.told answer credential)) (byNames : o.useIds = false) :
    let ran := (command.procedure o).run client (service.transport network.logging) m
    let ran' := (command'.procedure { o with useIds := true, scope := scope' }).run client
      (service.transport network.logging) m
    ran.1 = ran'.1 ∧
      Detours m.server.server.log ran.2.server.server.log ran'.2.server.server.log := by
  intro ran ran'
  have meets := addresses.meets (o := o) (p := { o with useIds := true, scope := scope' })
    consistent byNames rfl rfl rfl
  rcases meets with meets | ⟨names, ids, nonempty, given, rfl, rfl, rfl, resolves⟩
  · exact meets.run roomy unset answers stored
  · have same : ran = ran' := by
      simp only [ran, ran', Command.procedure, Command.volumesProcedure, given, byNames,
        Bool.false_eq_true, if_false, if_true, check_ids, Procedure.print, Procedure.ask,
        Procedure.run_perform, perform_getAllVolumes unset answers stored o.policy nonempty resolves]
    have keeps : Machine.Keeps (service.transport network.logging) (fun _ => True)
        (fun s => m.server.server.log <+: s.server.log) :=
      ⟨fun _ _ _ begins => begins, fun c s _ begins =>
        begins.trans (service.land_begins network c s)⟩
    obtain ⟨rest, logged⟩ : m.server.server.log <+: ran.2.server.server.log :=
      Procedure.run_keeps keeps client _ m List.prefix_rfl
    rw [← same, ← logged]
    exact ⟨rfl, .refl _ rest⟩

end Runs

/-! ### Commands -/

namespace Invocation

variable {network : Network σ} {answer : Request → Outcome}

/-- What the server tells the calls of a command, once the command has logged in. -/
inductive Hears (i : Invocation) (answer : Request → Outcome) :
    ((c : Call) → Option c.Reply) → Prop where
  | mk {service : Service} {user : User} {session : Session Unit} (made : i.service = .ok service)
      (login : service.authenticate (.ofAnswer answer) i.options.username i.options.password
        ⟨none, ()⟩ = (some (.ok user), session)) :
      Hears i answer (service.told answer session.credential)

/-- After a login that succeeds, the credential in store is the one that decides what the
command hears. -/
theorem hears_of_login {i : Invocation} {service : Service} (made : i.service = .ok service)
    (answers : network.AnswersBy answer) {s after : Session (Logged σ)} {user : User}
    (fresh : s.credential = none)
    (login : service.land network.logging
      (.authenticate i.options.username i.options.password) s = (some (.ok user), after)) :
    i.Hears answer (service.told answer after.credential) := by
  obtain ⟨stored, brings, -⟩ := Service.land_addAlike answers
    (Http.Network.ofAnswer_answersBy answer) service
    (.authenticate i.options.username i.options.password) (t := ⟨none, ⟨(), []⟩⟩) fresh
  have unlogged := service.land_ofAnswer answer
    (.authenticate i.options.username i.options.password) none
  rw [login] at stored brings
  generalize service.land (Http.Network.ofAnswer answer).logging _ _ = landed
    at stored brings unlogged
  obtain ⟨reply, session⟩ := landed
  obtain rfl : some (.ok user) = reply := brings
  have known : service.authenticate (.ofAnswer answer) i.options.username i.options.password
      ⟨none, ()⟩ = (some (.ok user), session.unlogged) := unlogged
  have hears := Hears.mk made known
  rwa [show session.unlogged.credential = after.credential from stored.symm] at hears

def loginLog (i : Invocation) (network : Network σ) (server : σ) : List (Request × Outcome) :=
  match i.service with
  | .error _ => []
  | .ok service =>
    (i.client.perform (service.transport network.logging)
      (.authenticate i.options.username i.options.password)
      ⟨⟨none, ⟨server, []⟩⟩, 0, [], none⟩).2.server.server.log

/-- A command by names and the command by the identifiers for which they stand leave the
same report. After the login each looks up what it has to; then they send the same, unless
both are over. Looking up changes nothing, so the same changes are asked for. -/
theorem names_stand_for_ids (i : Invocation) (byNames : i.options.useIds = false)
    {scope : Option String} {command : Command} (answers : network.AnswersBy answer) (server : σ)
    (resolves : ∀ told, i.Hears answer told →
      Consistent told ∧ Addresses told i.options.scope i.command scope command) :
    let j : Invocation := ⟨{ i.options with useIds := true, scope }, command⟩
    (i.run network server).1 = (j.run network server).1 ∧
      Detours (i.loginLog network server) (i.log network server) (j.log network server) ∧
      (i.log network server).filter (·.1.method.isMutation) =
        (j.log network server).filter (·.1.method.isMutation) := by
  intro j
  suffices same : (i.run network server).1 = (j.run network server).1 ∧
      Detours (i.loginLog network server) (i.log network server) (j.log network server) from
    ⟨same.1, same.2, same.2.mutations⟩
  rw [run_logging i, run_logging j]
  unfold log run loginLog
  rw [show j.service = i.service from rfl, show j.client = i.client from rfl]
  cases made : i.service with
  | error failure => exact ⟨rfl, .refl [] []⟩
  | ok service =>
    simp only [procedure, Procedure.askWithin, Procedure.run_perform, j]
    generalize performed : i.client.perform (service.transport network.logging)
      (.authenticate i.options.username i.options.password)
      ⟨⟨none, ⟨server, []⟩⟩, 0, [], none⟩ = ended
    obtain ⟨result, after⟩ := ended
    have finished := Detours.refl after.server.server.log []
    rw [List.append_nil] at finished
    rcases result with _ | fault | user
    · exact ⟨rfl, finished⟩
    · exact ⟨rfl, finished⟩
    · obtain ⟨roomy, unset, landed⟩ := Client.of_login_ok rfl performed
      obtain ⟨consistent, addresses⟩ := resolves _ (hears_of_login made answers rfl landed)
      obtain ⟨same, detours⟩ := addresses.run roomy unset answers rfl consistent byNames
      exact ⟨congrArg (Option.map Report.ofResult) same, detours⟩

section OneVolume

/-- A server with one volume, in one namespace. -/
def oneVolume : Request → Outcome := fun r =>
  let space := "\x7b\"id\":\"ns\",\"name\":\"default\",\"version\":\"3\"\x7d"
  let volume :=
    "\x7b\"id\":\"v\",\"name\":\"data\",\"namespaceID\":\"ns\",\"version\":\"9\"\x7d"
  let user := "\x7b\"id\":\"u\",\"username\":\"ann\",\"version\":\"3\"\x7d"
  let document (text : String) : Outcome :=
    .reply ⟨200, [("Authorization", "Bearer tok")], Text.runes text, true⟩
  if r.method ≠ .get then document user
  else if r.target = "/v2/namespaces" then document ("[" ++ space ++ "]")
  else if r.target = "/v2/namespaces/ns" then document space
  else if r.target = "/v2/namespaces/ns/volumes" then document ("[" ++ volume ++ "]")
  else if r.target = "/v2/namespaces/ns/volumes/v" then document volume
  else .reply ⟨404, [], [], true⟩

def onlyNamespace : Namespace :=
  ⟨⟨"ns", by decide⟩, "default", .empty, none, none, ⟨"3", by decide⟩⟩

def onlyVolume : Volume :=
  ⟨⟨"v", by decide⟩, "data", "", 0, ⟨"ns", by decide⟩, none, .empty, .unknown, 0, none, [], none,
    none, ⟨"9", by decide⟩⟩

/-- What it tells the calls of a command that has logged in. -/
def oneVolumeTells (c : Call) : Option c.Reply :=
  Service.told ⟨"http://node/v2", "storageos-cli/0.1.0"⟩ oneVolume (Credential.ofText? "tok") c

theorem oneVolumeTells_namespaces :
    oneVolumeTells .listNamespaces = some (.ok [onlyNamespace]) := by
  decide +kernel

theorem oneVolumeTells_volumes :
    oneVolumeTells (.listVolumes onlyNamespace.id) = some (.ok [onlyVolume]) := by
  decide +kernel

theorem oneVolume_consistent : Consistent oneVolumeTells := by
  have unlisted : (oneVolumeTells .listNodes).map Except.isOk = some false ∧
      (oneVolumeTells .listUsers).map Except.isOk = some false := by
    decide +kernel
  refine ⟨fun nodes brings => ?_, fun others brings => ?_, fun users brings => ?_,
    fun others brings => ?_⟩
  · rw [brings] at unlisted
    cases unlisted.1
  · cases oneVolumeTells_namespaces.symm.trans brings
    have read : oneVolumeTells (.getNamespace onlyNamespace.id) = some (.ok onlyNamespace) := by
      decide +kernel
    simpa using read
  · rw [brings] at unlisted
    cases unlisted.2
  · cases oneVolumeTells_namespaces.symm.trans brings
    have read : oneVolumeTells (.getVolume onlyNamespace.id onlyVolume.id) =
        some (.ok onlyVolume) := by
      decide +kernel
    intro other member found brings
    obtain rfl := List.mem_singleton.mp member
    cases oneVolumeTells_volumes.symm.trans brings
    simpa using read

theorem hears_oneVolume {i : Invocation} (endpoint : i.options.endpoints = ["node"])
    (username : i.options.username = "storageos") (password : i.options.password = "storageos")
    {told : (c : Call) → Option c.Reply} (hears : i.Hears oneVolume told) :
    told = oneVolumeTells := by
  obtain @⟨service, user, session, made, login⟩ := hears
  rw [username, password] at login
  have known : i.service = .ok ⟨"http://node/v2", "storageos-cli/0.1.0"⟩ := by
    rw [Invocation.service, Options.endpoint, endpoint]
    decide +kernel
  obtain rfl := Except.ok.inj (known.symm.trans made)
  have stored : (Service.authenticate ⟨"http://node/v2", "storageos-cli/0.1.0"⟩
      (.ofAnswer oneVolume) "storageos" "storageos" ⟨none, ()⟩).2.credential =
        Credential.ofText? "tok" := by
    decide +kernel
  rw [login] at stored
  rw [stored]
  rfl

/-- The volume is deleted by its name, in a namespace that is given by its name. -/
theorem volume_deleted_by_name :
    let network : Network Unit := .ofAnswer oneVolume
    let options : Options :=
      ⟨["node"], Span.ofParts 5 0, "storageos", "storageos", false, some "default", .skip, .text⟩
    let i : Invocation := ⟨options, .deleteVolume "data" none none⟩
    let j : Invocation :=
      ⟨{ options with useIds := true, scope := some "ns" }, .deleteVolume "v" none none⟩
    (i.log network ()).map (fun entry => (entry.1.method, entry.1.target)) =
        [(.post, "/v2/auth/login"), (.get, "/v2/namespaces"), (.get, "/v2/namespaces/ns/volumes"),
          (.get, "/v2/namespaces/ns/volumes/v"),
          (.delete, "/v2/namespaces/ns/volumes/v?version=9")] ∧
      (i.run network ()).1 = some ⟨0, none, ""⟩ ∧ (j.run network ()).1 = some ⟨0, none, ""⟩ := by
  intro network options i j
  have ran : (i.run network.logging ⟨(), []⟩).1 = some ⟨0, none, ""⟩ ∧
      (i.log network ()).map (fun entry => (entry.1.method, entry.1.target)) =
        [(.post, "/v2/auth/login"), (.get, "/v2/namespaces"), (.get, "/v2/namespaces/ns/volumes"),
          (.get, "/v2/namespaces/ns/volumes/v"),
          (.delete, "/v2/namespaces/ns/volumes/v?version=9")] := by
    decide +kernel
  have report : (i.run network ()).1 = some ⟨0, none, ""⟩ := by
    rw [run_logging, Prod.map_fst, id_eq]
    exact ran.1
  refine ⟨ran.2, report, ?_⟩
  have resolves : ∀ told, i.Hears oneVolume told → Consistent told ∧
      Addresses told i.options.scope i.command (some "ns") j.command := by
    intro told hears
    rw [hears_oneVolume rfl rfl rfl hears]
    exact ⟨oneVolume_consistent, .deleteVolume none none
      ⟨_, oneVolumeTells_namespaces, by decide, .cons ⟨onlyNamespace, rfl, rfl⟩ .nil⟩
      ⟨_, oneVolumeTells_volumes, by decide, .cons ⟨onlyVolume, rfl, rfl⟩ .nil⟩⟩
  rw [← (i.names_stand_for_ids rfl (Http.Network.ofAnswer_answersBy oneVolume) () resolves).1]
  exact report

end OneVolume

end Invocation

end StorageControl
