import StorageControl.Command.Report
import StorageControl.Document.Reader
import StorageControl.Proofs.Decode
import StorageControl.Proofs.Instant
import StorageControl.Proofs.Labels
import StorageControl.Proofs.Width

/-! Printed resources, read back.

Every document that the program prints is read back as the value that it was written for:
each field is written so that its reader gives the same value, an absent value is null and
reads as absent, and labels keep their order.
-/

set_option autoImplicit false

namespace StorageControl

namespace Document

open Json (Decoder Record Value Decode.string_tree Decode.boolean_tree Decode.word32_tree
  Decode.word64_tree Decode.refine_tree Decode.option_tree Decode.list_tree)
open Json.Record (makes_pure)

/-! ### Single values -/

theorem toId_tree {subject : Subject} (id : Id subject) : toId subject (ofId id).tree = .ok id :=
  Decode.refine_tree (Decode.string_tree id.text) (by rw [Id.ofText, Id.ofText?_text])

theorem toVersion_tree (v : Version) : toVersion (ofVersion v).tree = .ok v :=
  Decode.refine_tree (Decode.string_tree v.text) (by rw [Version.ofText, Version.ofText?_text])

theorem toInstant_tree (i : Instant) : toInstant (ofInstant i).tree = .ok i :=
  Decode.refine_tree rfl i.ofText_text

theorem toLabels_tree (labels : Labels) : toLabels (ofLabels labels).tree = .ok labels := by
  rw [toLabels, ofLabels, Json.Decode.map_tree]
  exact congrArg Except.ok labels.ofList_entries

theorem toHealth_tree (h : Health) : toHealth (Value.string h.name).tree = .ok h := by
  cases h <;> rfl

theorem toFilesystem_tree (fs : Filesystem) :
    toFilesystem (Value.string fs.name).tree = .ok fs := by
  cases fs <;> rfl

theorem toLogLevel_tree (l : LogLevel) : toLogLevel (Value.string l.name).tree = .ok l := by
  cases l <;> rfl

theorem toLogFormat_tree (f : LogFormat) : toLogFormat (Value.string f.name).tree = .ok f := by
  cases f <;> rfl

theorem optionalId_tree {subject : Subject} (id : Option (Id subject)) :
    Json.Decode.option (toId subject) (Value.optional ofId id).tree = .ok id := by
  have solid (id : Id subject) : ofId id ≠ .null := nofun
  exact Decode.option_tree solid fun id _ => toId_tree id

theorem optionalInstant_tree (i : Option Instant) :
    Json.Decode.option toInstant (ofInstant? i).tree = .ok i := by
  have solid (i : Instant) : ofInstant i ≠ .null := nofun
  exact Decode.option_tree solid fun i _ => toInstant_tree i

/-! ### Resources -/

theorem toLicence_tree {l : Licence} (fits : l.Fits) : toLicence (ofLicence l).tree = .ok l := by
  refine Record.decode_tree ?_ (by simp) _ _
  exact makes_pure Licence.mk
    |>.member (optionalId_tree l.clusterId)
    |>.member (optionalInstant_tree l.expiresAt)
    |>.member (Decode.word64_tree fits)
    |>.member (Decode.string_tree l.kind)
    |>.member (Decode.string_tree l.customerName)

theorem toCluster_tree {c : Cluster} (fits : c.Fits) : toCluster (ofCluster c).tree = .ok c := by
  refine Record.decode_tree ?_ (by simp) _ _
  exact makes_pure Cluster.mk
    |>.member (toId_tree c.id)
    |>.member (toLicence_tree fits)
    |>.member (Decode.boolean_tree c.disableTelemetry)
    |>.member (Decode.boolean_tree c.disableCrashReporting)
    |>.member (Decode.boolean_tree c.disableVersionCheck)
    |>.member (toLogLevel_tree c.logLevel)
    |>.member (toLogFormat_tree c.logFormat)
    |>.member (optionalInstant_tree c.createdAt)
    |>.member (optionalInstant_tree c.updatedAt)
    |>.member (toVersion_tree c.version)

theorem toNodeConfiguration_tree (c : NodeConfiguration) :
    toNodeConfiguration (ofNodeConfiguration c).tree = .ok c := by
  refine Record.decode_tree ?_ (by simp) _ _
  exact makes_pure NodeConfiguration.mk
    |>.member (Decode.string_tree c.io)
    |>.member (Decode.string_tree c.supervisor)
    |>.member (Decode.string_tree c.gossip)
    |>.member (Decode.string_tree c.clustering)

theorem toNode_tree (n : Node) : toNode (ofNode n).tree = .ok n := by
  have solid (c : NodeConfiguration) : ofNodeConfiguration c ≠ .null := nofun
  have configuration := Decode.option_tree solid fun c (_ : c ∈ n.configuration) =>
    toNodeConfiguration_tree c
  refine Record.decode_tree ?_ (by simp) _ _
  exact makes_pure Node.mk
    |>.member (toId_tree n.id)
    |>.member (Decode.string_tree n.name)
    |>.member (toHealth_tree n.health)
    |>.member (toLabels_tree n.labels)
    |>.member configuration
    |>.member (optionalInstant_tree n.createdAt)
    |>.member (optionalInstant_tree n.updatedAt)
    |>.member (toVersion_tree n.version)

theorem toNamespace_tree (n : Namespace) : toNamespace (ofNamespace n).tree = .ok n := by
  refine Record.decode_tree ?_ (by simp) _ _
  exact makes_pure Namespace.mk
    |>.member (toId_tree n.id)
    |>.member (Decode.string_tree n.name)
    |>.member (toLabels_tree n.labels)
    |>.member (optionalInstant_tree n.createdAt)
    |>.member (optionalInstant_tree n.updatedAt)
    |>.member (toVersion_tree n.version)

theorem toUser_tree (u : User) : toUser (ofUser u).tree = .ok u := by
  have groups := Decode.list_tree fun g (_ : g ∈ u.groups) => toId_tree g
  refine Record.decode_tree ?_ (by simp) _ _
  exact makes_pure User.mk
    |>.member (toId_tree u.id)
    |>.member (Decode.string_tree u.username)
    |>.member (Decode.boolean_tree u.isAdmin)
    |>.member groups
    |>.member (optionalInstant_tree u.createdAt)
    |>.member (optionalInstant_tree u.updatedAt)
    |>.member (toVersion_tree u.version)

theorem toDeployment_tree {d : Deployment} (fits : d.Fits) :
    toDeployment (ofDeployment d).tree = .ok d := by
  refine Record.decode_tree ?_ (by simp) _ _
  exact makes_pure Deployment.mk
    |>.member (toId_tree d.id)
    |>.member (toId_tree d.node)
    |>.member (Decode.word32_tree fits)
    |>.member (toHealth_tree d.health)
    |>.member (Decode.boolean_tree d.syncing)

theorem toVolume_tree {v : Volume} (fits : v.Fits) : toVolume (ofVolume v).tree = .ok v := by
  have solid (d : Deployment) : ofDeployment d ≠ .null := nofun
  have master := Decode.option_tree solid fun d here => toDeployment_tree (fits.master d here)
  have replicas := Decode.list_tree fun d here => toDeployment_tree (fits.replicas d here)
  refine Record.decode_tree ?_ (by simp) _ _
  exact makes_pure Volume.mk
    |>.member (toId_tree v.id)
    |>.member (Decode.string_tree v.name)
    |>.member (Decode.string_tree v.description)
    |>.member (Decode.word64_tree fits.sizeBytes)
    |>.member (toId_tree v.scope)
    |>.member (optionalId_tree v.attachedOn)
    |>.member (toLabels_tree v.labels)
    |>.member (toFilesystem_tree v.filesystem)
    |>.member (Decode.word32_tree fits.inode)
    |>.member master
    |>.member replicas
    |>.member (optionalInstant_tree v.createdAt)
    |>.member (optionalInstant_tree v.updatedAt)
    |>.member (toVersion_tree v.version)

/-! ### What is printed -/

/-- Whether a value is read back from what is printed of it, and so is a list of values. -/
def ReadsBack {α : Type} (decode : Decoder α) (write : α → Value) (fits : α → Prop) : Prop :=
  (∀ a, fits a →
    Json.readText decode (Report.ofResult (.ok (some (write a)))).output = .ok a) ∧
  ∀ as, (∀ a ∈ as, fits a) →
    Json.readText (Json.Decode.list decode)
      (Report.ofResult (.ok (some (ofList write as)))).output = .ok as

theorem readText_printed {α : Type} {decode : Decoder α} {document : Value} {a : α}
    (read : decode document.tree = .ok a) :
    Json.readText decode (Report.ofResult (.ok (some document))).output = .ok a := by
  rw [Report.ofResult, Json.readText, Json.readRunes, Json.ofRunes_pretty]
  simp only [read]
  rfl

theorem readsBack {α : Type} {decode : Decoder α} {write : α → Value} {fits : α → Prop}
    (reads : ∀ a, fits a → decode (write a).tree = .ok a) : ReadsBack decode write fits := by
  constructor
  · intro a fit
    exact readText_printed (reads a fit)
  · intro as fit
    exact readText_printed (Decode.list_tree fun a here => reads a (fit a here))

/-- Every resource, and every part of one, is read back from what is printed of it, alone
and in a list, if its numbers fit their types; and those of the server's answers do. -/
theorem printed_resources_read_back :
    (ReadsBack toCluster ofCluster Cluster.Fits ∧
      ReadsBack toNode ofNode (fun _ => True) ∧
      ReadsBack toNamespace ofNamespace (fun _ => True) ∧
      ReadsBack toUser ofUser (fun _ => True) ∧
      ReadsBack toVolume ofVolume Volume.Fits) ∧
    (ReadsBack toLicence ofLicence Licence.Fits ∧
      ReadsBack toNodeConfiguration ofNodeConfiguration (fun _ => True) ∧
      ReadsBack toDeployment ofDeployment Deployment.Fits ∧
      ReadsBack toLabels ofLabels (fun _ => True) ∧
      ReadsBack toInstant ofInstant (fun _ => True)) ∧
    ∀ body : List Text.Rune,
      (∀ c, Wire.read Wire.toCluster Wire.Cluster.resource body = .ok c → c.Fits) ∧
      (∀ v, Wire.read Wire.toVolume Wire.Volume.resource body = .ok v → v.Fits) ∧
      ∀ vs, Wire.readAll Wire.toVolume Wire.Volume.resource body = .ok vs → ∀ v ∈ vs, v.Fits := by
  refine ⟨⟨?_, ?_, ?_, ?_, ?_⟩, ⟨?_, ?_, ?_, ?_, ?_⟩, fun body => ⟨?_, ?_, ?_⟩⟩
  · exact readsBack fun c fits => toCluster_tree fits
  · exact readsBack fun n _ => toNode_tree n
  · exact readsBack fun n _ => toNamespace_tree n
  · exact readsBack fun u _ => toUser_tree u
  · exact readsBack fun v fits => toVolume_tree fits
  · exact readsBack fun l fits => toLicence_tree fits
  · exact readsBack fun c _ => toNodeConfiguration_tree c
  · exact readsBack fun d fits => toDeployment_tree fits
  · exact readsBack fun labels _ => toLabels_tree labels
  · exact readsBack fun i _ => toInstant_tree i
  · intro c got
    exact Wire.read_makes Wire.toCluster_fits Wire.Cluster.resource_fits got
  · intro v got
    exact Wire.read_makes Wire.toVolume_fits Wire.Volume.resource_fits got
  · intro vs got
    exact Wire.readAll_makes Wire.toVolume_fits Wire.Volume.resource_fits got

/-- A volume with escapes in its texts, the greatest numbers, a leap second and years of
more than four digits. -/
def extremeVolume : Volume where
  id := ⟨"volume \"0\"", by decide⟩
  name := "back\\slash\nnew line"
  description := "Σ😀"
  sizeBytes := 18446744073709551615
  scope := ⟨"default", by decide⟩
  attachedOn := none
  labels := Labels.ofList [("env", "prod"), ("", "")]
  filesystem := .unknown
  inode := 4294967295
  master := some ⟨⟨"d", by decide⟩, ⟨"n", by decide⟩, 0, .unknown, true⟩
  replicas := []
  createdAt := some ⟨10000, 12, 31, 23, 59, 60, 1, by decide, by decide⟩
  updatedAt := some ⟨-262143, 1, 1, 0, 0, 0, 999999999, by decide, by decide⟩
  version := ⟨"7", by decide⟩

/-- It is read back, and so is a cluster that was read from an answer. -/
theorem extreme_resources_read_back :
    let body := Text.runes ("\x7b\"id\":\"c\",\"version\":\"7\",\"licence\":" ++
      "\x7b\"clusterCapacityBytes\":18446744073709551615\x7d\x7d")
    Json.readText toVolume (Report.ofResult (.ok (some (ofVolume extremeVolume)))).output =
      .ok extremeVolume ∧
    ∃ c, Wire.read Wire.toCluster Wire.Cluster.resource body = .ok c ∧
      Json.readText toCluster (Report.ofResult (.ok (some (ofCluster c)))).output = .ok c := by
  intro body
  obtain ⟨⟨clusters, -, -, -, volumes⟩, -, widths⟩ := printed_resources_read_back
  have fits : extremeVolume.Fits := by
    refine ⟨by decide, by decide, ?_, fun _ here => nomatch here⟩
    rintro d ⟨⟩
    exact (by decide : 0 < Word.limit 32)
  let c : Cluster :=
    ⟨⟨"c", by decide⟩, ⟨none, none, 18446744073709551615, "", ""⟩, false, false, false,
      .unknown, .unknown, none, none, ⟨"7", by decide⟩⟩
  have read : Wire.read Wire.toCluster Wire.Cluster.resource body = .ok c := rfl
  exact ⟨volumes.1 extremeVolume fits, c, read, clusters.1 c ((widths _).1 c read)⟩

end Document

end StorageControl
