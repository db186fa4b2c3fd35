import StorageControl.Command.Report
import StorageControl.Proofs.Trimming

/-! The endpoint of a process.

The first endpoint that is not blank is used, without the blanks around it. In the base of
all URLs the slashes behind it are gone too. Only blank endpoints keep a process from its
service.
-/

set_option autoImplicit false

namespace StorageControl

/-! ### The endpoint that is used -/

/-- An endpoint, without the white space around it, before which all others are blank. -/
def Options.Chooses (o : Options) (endpoint : String) : Prop :=
  ∃ before written after, o.endpoints = before ++ written :: after ∧
    (∀ text ∈ before, Text.Blank text) ∧ ¬Text.Blank written ∧
    Text.Trims Text.isWhiteSpace written.toList endpoint.toList

namespace Options

variable {o : Options} {endpoint : String}

theorem endpoint_eq_error_iff {fault : ConfigFault} :
    o.endpoint = .error fault ↔
      fault = .noEndpoint ∧ ∀ text ∈ o.endpoints, Text.Blank text := by
  have none_iff : (o.endpoints.map Text.trim).find? (· ≠ "") = none ↔
      ∀ text ∈ o.endpoints, Text.Blank text := by
    simp only [List.find?_eq_none, List.forall_mem_map, ne_eq, decide_not, Bool.not_eq_true,
      Bool.not_eq_false', decide_eq_true_eq, Text.trim_eq_empty_iff]
  rw [Options.endpoint, ← none_iff]
  cases (o.endpoints.map Text.trim).find? (· ≠ "") <;> simp [eq_comm]

theorem chooses_of_endpoint (chosen : o.endpoint = .ok endpoint) : o.Chooses endpoint := by
  rw [Options.endpoint] at chosen
  split at chosen
  next found =>
    cases chosen
    obtain ⟨named, trimmed, more, split, earlier⟩ := List.find?_eq_some_iff_append.mp found
    obtain ⟨before, rest, written, rfl, same⟩ := List.map_eq_append_iff.mp split
    obtain ⟨text, after, rfl, rfl, rfl⟩ := List.map_eq_cons_iff.mp same
    refine ⟨before, text, after, written, fun blank member => ?_, ?_, ?_⟩
    · rw [← Text.trim_eq_empty_iff]
      simpa using earlier _ (List.mem_map_of_mem member)
    · rw [← Text.trim_eq_empty_iff]
      simpa using named
    · exact Text.trim_eq_iff.mp rfl
  next => cases chosen

/-- What is chosen is trimmed already, and there is some of it. -/
theorem Chooses.trimmed (chooses : o.Chooses endpoint) :
    Text.trim endpoint = endpoint ∧ endpoint ≠ "" := by
  obtain ⟨before, written, after, -, -, named, trims⟩ := chooses
  refine ⟨Text.trim_eq_iff.mpr trims.self, ?_⟩
  rintro rfl
  exact named (Text.trims_nil_iff.mp trims)

end Options

/-! ### The base of URLs -/

theorem Service.ofSettings_of_trimmed {endpoint : String} (trimmed : Text.trim endpoint = endpoint)
    (some : endpoint ≠ "") (scheme userAgent : String) :
    ofSettings ⟨endpoint, scheme, userAgent⟩ =
      if Http.isHeaderValue userAgent then
        .ok ⟨scheme ++ "://" ++ Text.trimEndOf '/' endpoint ++ "/v2", userAgent⟩
      else .error .userAgent := by
  rw [ofSettings, if_neg (by rwa [trimmed])]

theorem Invocation.service_of_endpoint {i : Invocation} {endpoint : String}
    (chosen : i.options.endpoint = .ok endpoint) :
    ∃ service, i.service = .ok service ∧
      service.base = "http://" ++ Text.trimEndOf '/' endpoint ++ "/v2" := by
  obtain ⟨trimmed, some⟩ := (Options.chooses_of_endpoint chosen).trimmed
  have sendable : Http.isHeaderValue "storageos-cli/0.1.0" = true := by decide
  have made := Service.ofSettings_of_trimmed trimmed some "http" "storageos-cli/0.1.0"
  have scheme : "http" ++ "://" = "http://" := by decide
  rw [if_pos sendable, scheme] at made
  refine ⟨⟨_, "storageos-cli/0.1.0"⟩, ?_, rfl⟩
  rw [service, chosen]
  simp only [Settings.ofEndpoint, made]

end StorageControl
