import StorageControl.Proofs.Change

/-! Servers that keep a volume at versions.

Such a server changes the volume only at the version that it stores, and a changed volume
has a version that it never had before. The server in memory is one: there every change
makes the version longer.
-/

set_option autoImplicit false

namespace StorageControl

/-- The calls that a change of a volume makes. -/
inductive VolumeCall (scope : NamespaceId) (id : VolumeId) : Call → Prop where
  | read : VolumeCall scope id (.getVolume scope id)
  | present (change : VolumeChange) (v : Version) :
      VolumeCall scope id ((Change.volume scope id change).present v)

/-- A server that keeps one volume at versions. Less is asked of it than it may promise: a
read may bring any version that the volume has had, a change that fails may have been
applied all the same, and a volume that is gone may come back, but never at an old version. -/
structure VersionedServer (σ : Type) (scope : NamespaceId) (id : VolumeId) where
  /-- Whether a call may bring a reply and lead from one state to another. -/
  serves : σ → (c : Call) → c.Reply → σ → Prop
  volume? : σ → Option Volume
  /-- Whether the volume has had a version up to now. -/
  had : σ → Version → Prop
  had_current : ∀ {s u}, volume? s = some u → had s u.version
  had_kept : ∀ {s c r t v}, VolumeCall scope id c → serves s c r t → had s v → had t v
  had_read : ∀ {s u t}, serves s (.getVolume scope id) (.ok u) t → had s u.version
  /-- Whatever changes the volume leaves it at a version that it never had. -/
  renewed : ∀ {s c r t u}, VolumeCall scope id c → serves s c r t → volume? t ≠ volume? s →
    volume? t = some u → ¬ had s u.version
  /-- A change is applied only at the stored version. -/
  guarded : ∀ {s change v r t}, serves s ((Change.volume scope id change).present v) r t →
    volume? t ≠ volume? s → (volume? s).map Volume.version = some v
  /-- A change that succeeds was applied. -/
  effective : ∀ {s change v a t}, serves s ((Change.volume scope id change).present v) (.ok a) t →
    volume? t ≠ volume? s

namespace World

theorem find?_updateFirst {α : Type} {fits : α → Bool} {change : α → α}
    (kept : ∀ a, fits a = true → fits (change a) = true) (items : List α) :
    (updateFirst fits change items).find? fits = (items.find? fits).map change := by
  induction items with
  | nil => rfl
  | cons a rest ih =>
    cases fit : fits a with
    | true => simp [updateFirst, fit, kept a fit]
    | false => simpa [updateFirst, fit] using ih

theorem next_text (v : Version) : (next v).text = v.text ++ "+" := by
  have nonempty : v.text ++ "+" ≠ "" := by simp
  simp [next, Version.ofText?, Token.ofText?, Version.text]

theorem length_lt_next (v : Version) : v.text.length < (next v).text.length := by
  rw [next_text, String.length_append]
  exact Nat.lt_succ_self _

variable {scope : NamespaceId} {id : VolumeId} {w after : World}

theorem volume?_updateFirst {change : Volume → Volume}
    (kept : ∀ v, Volume.isAt scope id (change v) = Volume.isAt scope id v) (w : World) :
    volume? { w with volumes := updateFirst (Volume.isAt scope id) change w.volumes } scope id =
      (w.volume? scope id).map change :=
  find?_updateFirst (fun v fit => (kept v).trans fit) w.volumes

theorem volume?_filter (w : World) (scope : NamespaceId) (id : VolumeId) :
    volume? { w with volumes := w.volumes.filter fun v => !Volume.isAt scope id v } scope id =
      none := by
  simp [volume?, List.find?_filter]

/-- A call changed the volume: it is gone, or at its next version. -/
inductive Turned (scope : NamespaceId) (id : VolumeId) (w after : World) (u : Volume) : Prop where
  | gone (stored : w.volume? scope id = some u) (left : after.volume? scope id = none)
  | renewed (u' : Volume) (stored : w.volume? scope id = some u)
      (left : after.volume? scope id = some u') (version : u'.version = next u.version)

theorem turned_of_update {change : Volume → Volume} {u : Volume}
    (kept : ∀ v, Volume.isAt scope id (change v) = Volume.isAt scope id v)
    (stored : w.volume? scope id = some u) (version : (change u).version = next u.version) :
    Turned scope id w
      { w with volumes := updateFirst (Volume.isAt scope id) change w.volumes } u := by
  refine .renewed (change u) stored ?_ version
  rw [volume?_updateFirst kept, stored]
  rfl

theorem Turned.stored {u : Volume} (turned : Turned scope id w after u) :
    w.volume? scope id = some u := by
  cases turned with
  | gone stored left => exact stored
  | renewed u' stored left version => exact stored

theorem Turned.ne {u : Volume} (turned : Turned scope id w after u) :
    after.volume? scope id ≠ w.volume? scope id := by
  intro same
  cases turned with
  | gone stored left =>
    rw [stored, left] at same
    cases same
  | renewed u' stored left version =>
    rw [stored, left] at same
    cases same
    exact absurd (length_lt_next u.version) (by rw [← version]; exact Nat.lt_irrefl _)

theorem act_read {reply : (Call.getVolume scope id).Reply}
    (acted : w.act (.getVolume scope id) = (reply, after)) :
    (∀ u, reply = .ok u → w.volume? scope id = some u) ∧
      (after.volume? scope id = w.volume? scope id ∨ ∃ u, Turned scope id w after u) := by
  rw [act] at acted
  cases stored : w.volume? scope id with
  | none =>
    rw [stored] at acted
    cases acted
    exact ⟨fun u found => (nomatch found), .inl stored⟩
  | some u =>
    rw [stored] at acted
    cases acted
    refine ⟨fun _ found => congrArg some (Except.ok.inj found), ?_⟩
    split
    · exact .inr ⟨u, turned_of_update (fun _ => rfl) stored rfl⟩
    · exact .inl stored

theorem checked_cases {α R : Type} {found : Option R} {version : R → Version} {missing : String}
    {presented : Version} {change : R → Except TransportFault α × World}
    {reply : Except TransportFault α}
    (outcome : checked found version missing presented w change = (reply, after)) :
    ((∃ fault, reply = .error fault) ∧ after = w) ∨
      ∃ r, found = some r ∧ version r = presented ∧ change r = (reply, after) := by
  unfold checked at outcome
  split at outcome
  next =>
    cases outcome
    exact .inl ⟨⟨_, rfl⟩, rfl⟩
  next r =>
    split at outcome
    next same => exact .inr ⟨r, rfl, same, outcome⟩
    next =>
      cases outcome
      exact .inl ⟨⟨_, rfl⟩, rfl⟩

theorem act_present {change : VolumeChange} {v : Version}
    {reply : ((Change.volume scope id change).present v).Reply}
    (acted : w.act ((Change.volume scope id change).present v) = (reply, after)) :
    ((∃ fault, reply = .error fault) ∧ after.volume? scope id = w.volume? scope id) ∨
      ∃ u, u.version = v ∧ Turned scope id w after u := by
  cases change with
  | delete asyncMax =>
    obtain ⟨failed, rfl⟩ | ⟨u, stored, version, changed⟩ := checked_cases acted
    · exact .inl ⟨failed, rfl⟩
    · cases changed
      exact .inr ⟨u, version, .gone stored (w.volume?_filter scope id)⟩
  | detach =>
    obtain ⟨failed, rfl⟩ | ⟨u, stored, version, changed⟩ := checked_cases acted
    · exact .inl ⟨failed, rfl⟩
    · split at changed
      next =>
        cases changed
        exact .inl ⟨⟨_, rfl⟩, rfl⟩
      next =>
        cases changed
        exact .inr ⟨u, version, turned_of_update (fun _ => rfl) stored rfl⟩
  | setReplicas replicas =>
    obtain ⟨failed, rfl⟩ | ⟨u, stored, version, changed⟩ := checked_cases acted
    · exact .inl ⟨failed, rfl⟩
    · split at changed
      next =>
        cases changed
        exact .inl ⟨⟨_, rfl⟩, rfl⟩
      next =>
        cases changed
        exact .inr ⟨u, version, turned_of_update (fun _ => rfl) stored rfl⟩

theorem land_cases {c : Call} (call : VolumeCall scope id c) {reply : c.Reply}
    (landed : land c w = (some reply, after)) :
    ((∃ fault, reply = .error fault) ∧ after.volumes = w.volumes) ∨ w.act c = (reply, after) := by
  have quiet : noteListing c w = w := by
    obtain _ | ⟨_ | _ | _, v⟩ := call <;> rfl
  simp only [land, quiet] at landed
  split at landed
  next =>
    cases landed
    exact .inl ⟨⟨_, rfl⟩, rfl⟩
  next =>
    split at landed
    next =>
      cases landed
      exact .inl ⟨⟨_, rfl⟩, rfl⟩
    next =>
      cases landed
      exact .inr rfl

theorem land_volumeCall {c : Call} (call : VolumeCall scope id c) {reply : c.Reply}
    (landed : land c w = (some reply, after)) :
    after.volume? scope id = w.volume? scope id ∨ ∃ u, Turned scope id w after u := by
  obtain ⟨-, same⟩ | acted := land_cases call landed
  · exact .inl (by rw [volume?, same, volume?])
  · cases call with
    | read => exact (act_read acted).2
    | present change v =>
      exact (act_present acted).imp And.right fun ⟨u, _, turned⟩ => ⟨u, turned⟩

theorem land_read {u : Volume}
    (landed : land (.getVolume scope id) w = (some (.ok u), after)) :
    w.volume? scope id = some u := by
  obtain ⟨⟨_, failed⟩, -⟩ | acted := land_cases .read landed
  · cases failed
  · exact (act_read acted).1 u rfl

theorem land_present {change : VolumeChange} {v : Version}
    {reply : ((Change.volume scope id change).present v).Reply}
    (landed : land ((Change.volume scope id change).present v) w = (some reply, after)) :
    ((∃ fault, reply = .error fault) ∧ after.volume? scope id = w.volume? scope id) ∨
      ∃ u, u.version = v ∧ Turned scope id w after u := by
  obtain ⟨failed, same⟩ | acted := land_cases (.present change v) landed
  · exact .inl ⟨failed, by rw [volume?, same, volume?]⟩
  · exact act_present acted

/-- Whether a version may have been one of the volume: none of them was longer than the one
that it has now. -/
def MayHaveHad (scope : NamespaceId) (id : VolumeId) (w : World) (v : Version) : Prop :=
  ∀ u, w.volume? scope id = some u → v.text.length ≤ u.version.text.length

theorem mayHaveHad_of_stored {u : Volume} (stored : w.volume? scope id = some u) :
    MayHaveHad scope id w u.version := by
  intro u' stored'
  rw [stored] at stored'
  cases stored'
  exact Nat.le_refl _

theorem Turned.mayHaveHad {u : Volume} (turned : Turned scope id w after u) {v : Version}
    (had : MayHaveHad scope id w v) : MayHaveHad scope id after v := by
  intro u' left
  cases turned with
  | gone stored gone =>
    rw [gone] at left
    cases left
  | renewed u'' stored renewed version =>
    rw [renewed] at left
    cases left
    rw [version]
    exact Nat.le_trans (had u stored) (Nat.le_of_lt (length_lt_next u.version))

theorem Turned.not_mayHaveHad {u u' : Volume} (turned : Turned scope id w after u)
    (left : after.volume? scope id = some u') : ¬ MayHaveHad scope id w u'.version := by
  intro had
  cases turned with
  | gone stored gone =>
    rw [gone] at left
    cases left
  | renewed u'' stored renewed version =>
    rw [renewed] at left
    cases left
    have short := had u stored
    rw [version] at short
    exact absurd (length_lt_next u.version) (Nat.not_lt.mpr short)

/-- The server in memory, as one that keeps a volume at versions. -/
def versioned (scope : NamespaceId) (id : VolumeId) : VersionedServer World scope id where
  serves w c reply after := land c w = (some reply, after)
  volume? w := w.volume? scope id
  had := MayHaveHad scope id
  had_current := mayHaveHad_of_stored
  had_kept := by
    intro w c reply after v call landed had
    obtain same | ⟨u, turned⟩ := land_volumeCall call landed
    · intro u left
      exact had u (same ▸ left)
    · exact turned.mayHaveHad had
  had_read := fun landed => mayHaveHad_of_stored (land_read landed)
  renewed := by
    intro w c reply after u' call landed changed left
    obtain same | ⟨u, turned⟩ := land_volumeCall call landed
    · exact absurd same changed
    · exact turned.not_mayHaveHad left
  guarded := by
    intro w change v reply after landed changed
    obtain ⟨-, same⟩ | ⟨u, version, turned⟩ := land_present landed
    · exact absurd same changed
    · rw [turned.stored, Option.map_some, version]
  effective := by
    intro w change v answer after landed
    obtain ⟨⟨_, failed⟩, -⟩ | ⟨u, -, turned⟩ := land_present landed
    · cases failed
    · exact turned.ne

theorem serves_land {c : Call} {reply : c.Reply} (replied : (land c w).1 = some reply) :
    (versioned scope id).serves w c reply (land c w).2 :=
  Prod.ext replied rfl

end World

end StorageControl
