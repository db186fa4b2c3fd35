import StorageControl.Proofs.Line
import StorageControl.Proofs.Login
import StorageControl.Proofs.Sharing

/-! The way of a token.

A login hands out a token behind a lead in a header of its reply, and the calls after it
show the token in a header of their own. The login takes off the lead as often as it
stands there, so that a token comes back as it was given unless it begins with the lead
itself.
-/

set_option autoImplicit false

namespace StorageControl

/-! ### Values of headers -/

namespace Http

/-- Whether a value can be part of a header and arrives there whole: it is printable, and
no blank is at its ends. -/
structure Carries (value : String) : Prop where
  printable : ∀ c ∈ value.toList, 0x20 ≤ c.toNat ∧ c.toNat < 0x7F
  starts : value.toList.head? ≠ some ' '
  ends : value.toList.getLast? ≠ some ' '

theorem isHeaderBlank_iff {c : Char} (printable : 0x20 ≤ c.toNat) :
    isHeaderBlank c = true ↔ c = ' ' := by
  simp only [isHeaderBlank, Bool.or_eq_true, beq_iff_eq, or_iff_left_iff_imp]
  rintro rfl
  exact absurd printable (by decide)

/-- What does not begin with what is dropped stays as it is. -/
theorem dropWhile_of_head? {α : Type} {p : α → Bool} {items : List α}
    (keeps : ∀ a, items.head? = some a → p a = false) : items.dropWhile p = items := by
  cases items with
  | nil => rfl
  | cons a items => rw [List.dropWhile_cons, keeps a rfl, if_neg Bool.false_ne_true]

theorem carried_of_ends {value : String}
    (starts : ∀ c, value.toList.head? = some c → isHeaderBlank c = false)
    (ends : ∀ c, value.toList.getLast? = some c → isHeaderBlank c = false) :
    carried value = value := by
  rw [carried, dropWhile_of_head? starts, dropWhile_of_head?, List.reverse_reverse,
    String.ofList_toList]
  intro c last
  rw [List.head?_reverse] at last
  exact ends c last

variable {value : String}

theorem Carries.isHeaderBlank (carries : Carries value) {c : Char} (member : c ∈ value.toList)
    (solid : c ≠ ' ') : isHeaderBlank c = false := by
  rw [← Bool.not_eq_true, isHeaderBlank_iff (carries.printable c member).1]
  exact solid

theorem Carries.carried (carries : Carries value) : carried value = value := by
  apply carried_of_ends
  · intro c first
    exact carries.isHeaderBlank (List.mem_of_head? first) fun blank =>
      carries.starts (by rw [first, blank])
  · intro c last
    exact carries.isHeaderBlank (List.mem_of_getLast? last) fun blank =>
      carries.ends (by rw [last, blank])

theorem Carries.isReadable (carries : Carries value) : isReadable value = true := by
  rw [Http.isReadable, List.all_eq_true]
  intro c member
  simp [carries.printable c member]

end Http

/-! ### Leads -/

namespace Service

variable {lead text : List Char}

/-- A lead is taken off once more. -/
theorem withoutLeads_append (some : lead ≠ []) :
    withoutLeads lead (lead ++ text) = withoutLeads lead text := by
  have shorter : text.length < (lead ++ text).length := by
    have positive := List.length_pos_iff.mpr some
    rw [List.length_append]
    omega
  rw [withoutLeads, Text.dropLead_append]
  exact if_pos shorter

theorem withoutLeads_of_none (plain : ¬lead <+: text) : withoutLeads lead text = text := by
  rw [withoutLeads]
  split
  next rest dropped =>
    have whole := Grammar.eq_append_of_dropLead dropped
    exact absurd ⟨rest, whole.symm⟩ plain
  next => rfl

theorem withoutLeads_length (lead text : List Char) :
    (withoutLeads lead text).length ≤ text.length := by
  induction text using withoutLeads.induct lead with
  | case1 text rest dropped shorter ih =>
    rw [withoutLeads, dropped]
    simp only [if_pos shorter]
    omega
  | case2 text rest dropped same =>
    rw [withoutLeads, dropped]
    simp only [if_neg same, Nat.le_refl]
  | case3 text kept =>
    rw [withoutLeads]
    simp only [kept, Nat.le_refl]

/-- Text is left as it is unless it begins with the lead. -/
theorem withoutLeads_eq_iff (some : lead ≠ []) :
    withoutLeads lead text = text ↔ ¬lead <+: text := by
  constructor
  · rintro same ⟨rest, rfl⟩
    have shorter := withoutLeads_length lead rest
    have positive := List.length_pos_iff.mpr some
    rw [← withoutLeads_append some, same, List.length_append] at shorter
    omega
  · exact withoutLeads_of_none

open Http (Carries Reply)

/-- A reply to a login that succeeds, is read, and hands out a token behind the lead. -/
structure Issues (r : Reply) (token : String) (model : Wire.User) : Prop where
  isSuccess : r.isSuccess = true
  header : (r.headers.find? fun h => h.1.toLower == "authorization").map Prod.snd =
    some ("Bearer " ++ token)
  isWhole : r.isWhole = true
  read : Json.readRunes Wire.toUser r.body = .ok model

theorem carries_bearer {token : String} (carries : Carries token) (nonempty : token ≠ "") :
    Carries ("Bearer " ++ token) where
  printable c member := by
    rw [String.toList_append, List.mem_append] at member
    rcases member with lead | rest
    · revert c
      simp
    · exact carries.printable c rest
  starts := by
    rw [String.toList_append]
    exact fun blank => absurd (Option.some.inj blank) (by decide)
  ends := by
    have items : token.toList ≠ [] := by simpa using nonempty
    rw [String.toList_append, List.getLast?_append_of_ne_nil _ items]
    exact carries.ends

variable {r : Reply} {token : String} {model : Wire.User}

theorem Issues.login (issues : Issues r token model) : (login r).1 = handedOut r := by
  rw [Service.login, accepted, if_pos issues.isSuccess]
  cases handed : handedOut r with
  | none => simp only [handed]
  | some credential => simp only [handed, body, if_pos issues.isWhole, issues.read]

theorem Issues.header? (issues : Issues r token model) :
    r.header? "authorization" = some (Http.carried ("Bearer " ++ token)) := by
  have lower : "authorization".toLower = "authorization" := by decide +kernel
  obtain ⟨h, found, same⟩ := Option.map_eq_some_iff.mp issues.header
  rw [Reply.header?, lower, found, Option.map_some, same]

/-- The credential that is stored is what is left of the token without its own leads. -/
theorem Issues.handedOut (issues : Issues r token model) (carries : Carries token)
    (nonempty : token ≠ "") :
    handedOut r =
      Credential.ofText? (String.ofList (withoutLeads "Bearer ".toList token.toList)) := by
  have whole := carries_bearer carries nonempty
  rw [Service.handedOut, issues.header?, whole.carried]
  simp only [if_pos whole.isReadable]
  rw [String.toList_append, withoutLeads_append (by decide)]

/-- An empty token leaves the lead without its blank, which is none any more. -/
theorem Issues.stores_lead (issues : Issues r "" model) :
    (Service.login r).1.map Credential.text = some "Bearer" := by
  have bare : Http.carried ("Bearer " ++ "") = "Bearer" := by decide +kernel
  have readable : Http.isReadable "Bearer" = true := by decide +kernel
  rw [issues.login, Service.handedOut, issues.header?, bare]
  simp only [if_pos readable]
  rw [withoutLeads_of_none (by decide)]
  rfl

theorem ofText?_map_text {text : String} (nonempty : token ≠ "") :
    (Credential.ofText? text).map Credential.text = some token ↔ text = token := by
  by_cases empty : text = ""
  · simp [Credential.ofText?, Token.ofText?, empty, nonempty.symm]
  · simp [Credential.ofText?, Token.ofText?, empty, Credential.text]

/-- A login stores the token that it is given, unless the token begins with the lead. -/
theorem Issues.stores_iff (issues : Issues r token model) (carries : Carries token)
    (nonempty : token ≠ "") :
    (Service.login r).1.map Credential.text = some token ↔
      ¬"Bearer ".toList <+: token.toList := by
  rw [issues.login, issues.handedOut carries nonempty, ofText?_map_text nonempty,
    ← String.toList_inj, String.toList_ofList]
  exact withoutLeads_eq_iff (by decide)

/-- A token of printable characters keeps no request from being made. -/
theorem errand?_isSome_of_carries (service : Service) {credential : Credential}
    (carries : Carries credential.text) (route : Route) :
    (service.errand? route (some credential)).isSome = (service.errand? route none).isSome := by
  have sendable : Http.isHeaderValue credential.text = true := by
    rw [Http.isHeaderValue, List.all_eq_true]
    intro c member
    obtain ⟨low, high⟩ := carries.printable c member
    simp only [low, decide_true, Bool.true_and, Bool.or_eq_true, decide_eq_true_eq]
    exact .inl (Nat.ne_of_lt high)
  unfold errand?
  cases service.url? route with
  | none => rfl
  | some url =>
    simp only [Option.map_some, Option.map_none, Option.toList_some, Option.toList_none,
      List.all_cons, List.all_nil, sendable, Bool.true_and]
    split <;> rfl

end Service

/-! ### What later calls show -/

namespace Sharing

variable {service : Service} {call : Nat → Call}

/-- What has happened stays in the trace. -/
theorem act_trace (service : Service) (call : Nat → Call) (s : Clones) (action : Action) :
    ∃ events, (act service call s action).trace = s.trace ++ events := by
  cases action with
  | take k | send k | hear k outcome | leave k =>
    simp only [act]
    split
    all_goals first | exact ⟨[_], rfl⟩ | exact ⟨[], (List.append_nil _).symm⟩
  | store k =>
    simp only [act]
    split
    · split
      · exact ⟨[_], rfl⟩
      · exact ⟨[], (List.append_nil _).symm⟩
    · exact ⟨[], (List.append_nil _).symm⟩

theorem run_trace (service : Service) (call : Nat → Call) (actions : List Action) (s : Clones) :
    ∃ events, (run service call actions s).trace = s.trace ++ events := by
  induction actions generalizing s with
  | nil => exact ⟨[], (List.append_nil _).symm⟩
  | cons action actions ih =>
    obtain ⟨first, here⟩ := act_trace service call s action
    obtain ⟨rest, later⟩ := ih (act service call s action)
    refine ⟨first ++ rest, ?_⟩
    rw [← List.append_assoc, ← here, ← later]
    rfl

theorem latest_of_stored {before between : List Event} {k : Nat} {credential : Credential}
    (quiet : ∀ event ∈ between, event.stored? = none) :
    latest (before ++ .stored k credential :: between) = some credential := by
  have none : between.filterMap Event.stored? = [] := List.filterMap_eq_nil_iff.mpr quiet
  simp [latest, Event.stored?, none]

/-- A login hands out a token of printable characters, which may have blanks inside. The
login stores it unless it begins with the lead itself; for an empty one it stores the lead.
From then on, until another login stores a token, every request that stays at its place
shows it as it was given, and it keeps no request from being sent. -/
theorem token_sent_back (service : Service) (call : Nat → Call) {r : Http.Reply} {token : String}
    {model : Wire.User} (issues : Service.Issues r token model) (carries : Http.Carries token) :
    (token = "" → (Service.login r).1.map Credential.text = some "Bearer") ∧
    (token ≠ "" → ((Service.login r).1.map Credential.text = some token ↔
      ¬"Bearer ".toList <+: token.toList)) ∧
    (token ≠ "" → ¬"Bearer ".toList <+: token.toList →
      ∀ (earlier later : List Action) (j : Nat),
        let s := run service call earlier .start
        s.phase j = .replied r → (call j).isLogin = true →
          ∃ credential events, credential.text = token ∧
            (run service call (earlier ++ .store j :: later) .start).trace =
              s.trace ++ .stored j credential :: events ∧
            (∀ route, (service.errand? route (some credential)).isSome =
              (service.errand? route none).isSome) ∧
            ∀ before k prior e after, events = before ++ .sent k prior e :: after →
              (∀ event ∈ before, event.stored? = none) → (call k).isLogin = false →
                let own := ((service.url? (call k).route).bind Http.basicCredential).toList
                (e.request service.userAgent).authorization =
                  if prior.all (staysAt e.address) then own.map Http.carried ++ [token]
                  else []) := by
  refine ⟨?_, issues.stores_iff carries, ?_⟩
  · rintro rfl
    exact issues.stores_lead
  intro nonempty plain earlier later j s replied login
  obtain ⟨credential, brings, rfl⟩ :=
    Option.map_eq_some_iff.mp ((issues.stores_iff carries nonempty).mpr plain)
  have stored : act service call s (.store j) =
      { s.move j .over (.stored j credential) with credential := some credential } := by
    simp only [act, replied, login, brings]
  obtain ⟨events, traced⟩ := run_trace service call later (act service call s (.store j))
  have traced : (run service call (earlier ++ .store j :: later) .start).trace =
      s.trace ++ .stored j credential :: events := by
    rw [run_append]
    show (run service call later (act service call s (.store j))).trace = _
    rw [traced, stored, Clones.move_trace, List.append_assoc]
    rfl
  refine ⟨credential, events, rfl, traced, service.errand?_isSome_of_carries carries, ?_⟩
  intro before k prior e after split quiet other own
  have shown : Service.shown (call k) (some credential) = some credential := by
    cases asked : call k with
    | authenticate => simp [asked, Call.isLogin] at other
    | _ => rfl
  rw [split, ← List.cons_append, ← List.append_assoc] at traced
  have sound : Sound service call (run service call (earlier ++ .store j :: later) .start) :=
    sound_start.run (earlier ++ .store j :: later)
  obtain ⟨shows, -⟩ := sound.proper _ _ after traced
  rw [shows, latest_of_stored quiet, credentials, shown, List.map_append]
  simp only [Option.map_some, Option.toList_some, List.map_cons, List.map_nil, carries.carried]
  rfl

def Phase.reply? : Phase → Option Http.Reply
  | .replied r => some r
  | _ => none

theorem Phase.replied_of_reply? {phase : Phase} {r : Http.Reply} (reply : phase.reply? = some r) :
    phase = .replied r := by
  cases phase with
  | replied r' =>
    cases reply
    rfl
  | _ => cases reply

/-- Whether an event stores a credential, or which call it is a first request of. -/
def Event.outline : Event → Bool × Option Nat
  | .sent k none _ => (false, some k)
  | event => (event.stored?.isSome, none)

theorem Event.request_of_outline {event : Event} {k : Nat}
    (request : event.outline = (false, some k)) : ∃ e, event = .sent k none e := by
  unfold outline at request
  split at request
  next e =>
    cases request
    exact ⟨e, rfl⟩
  next => simp at request

theorem Event.quiet_of_outline {event : Event} {k : Option Nat}
    (quiet : event.outline = (false, k)) : event.stored? = none := by
  unfold outline at quiet
  split at quiet
  · rfl
  · simpa using congrArg Prod.fst quiet

/-- A token with a blank inside is shown as it was given. -/
theorem spaced_token_shown :
    let service : Service := ⟨"http://node/v2", "agent"⟩
    let call : Nat → Call := fun k => if k = 0 then .authenticate "u" "p" else .listNodes
    let user := Text.runes "\x7b\"id\":\"u\",\"username\":\"u\",\"version\":\"1\"\x7d"
    let granted : Http.Outcome := .reply ⟨200, [("Authorization", "Bearer to ken")], user, true⟩
    let actions : List Action :=
      [.take 0, .send 0, .hear 0 granted, .store 0, .leave 0, .take 1, .send 1]
    ∃ before e, (run service call actions .start).trace = before ++ [.sent 1 none e] ∧
      (e.request service.userAgent).authorization = ["to ken"] := by
  intro service call user granted actions
  let r : Http.Reply := ⟨200, [("Authorization", "Bearer to ken")], user, true⟩
  let earlier : List Action := [.take 0, .send 0, .hear 0 granted]
  have issues : Service.Issues r "to ken" ⟨"u", "u", false, [], none, none, "1"⟩ := by
    refine ⟨rfl, ?_, rfl, ?_⟩
    · decide +kernel
    · rfl
  have carries : Http.Carries "to ken" := ⟨by simp, by decide, by decide⟩
  have replied : (run service call earlier .start).phase 0 = .replied r :=
    Phase.replied_of_reply? (by decide +kernel)
  have outline : (run service call actions .start).trace.map Event.outline = [(false, none),
      (false, some 0), (false, none), (true, none), (false, none), (false, none),
      (false, some 1)] := by
    decide +kernel
  have length : (run service call earlier .start).trace.length = 3 := by decide +kernel
  have bare : (service.url? (call 1).route).bind Http.basicCredential = none := by decide +kernel
  obtain ⟨-, -, sends⟩ := token_sent_back service call issues carries
  obtain ⟨credential, events, -, traced, -, shows⟩ :=
    sends (by decide) (by decide) earlier [.leave 0, .take 1, .send 1] 0 replied rfl
  change (run service call actions .start).trace = _ at traced
  generalize (run service call actions .start).trace = whole at outline traced ⊢
  generalize (run service call earlier .start).trace = front at length traced
  -- Behind the token that is stored there are three events, and the last one is a request.
  have behind : events.map Event.outline = [(false, none), (false, none), (false, some 1)] := by
    have behind := congrArg (List.drop 4) outline
    rwa [traced, ← List.map_drop, List.drop_append, length, List.drop_of_length_le
      (Nat.le_trans (Nat.le_of_eq length) (by decide))] at behind
  obtain ⟨left, rest, rfl, first, others⟩ := List.map_eq_cons_iff.mp behind
  obtain ⟨took, rest, rfl, second, others⟩ := List.map_eq_cons_iff.mp others
  obtain ⟨last, rest, rfl, third, none⟩ := List.map_eq_cons_iff.mp others
  obtain rfl := List.map_eq_nil_iff.mp none
  obtain ⟨e, rfl⟩ := Event.request_of_outline third
  have quiet : ∀ event ∈ [left, took], event.stored? = .none := by
    simp [Event.quiet_of_outline first, Event.quiet_of_outline second]
  refine ⟨_, e, traced.trans (List.append_assoc _ [_, left, took] [_]).symm, ?_⟩
  rw [shows [left, took] 1 .none e [] rfl quiet rfl, bare]
  rfl

/-- A token that begins with the lead is shown without it, and where the token is missing the
lead, which has lost its blank, is stored for it. -/
theorem token_like_lead_not_sent_back :
    let service : Service := ⟨"http://node/v2", "agent"⟩
    let call : Nat → Call := fun k => if k = 0 then .authenticate "u" "p" else .listNodes
    let user := Text.runes "\x7b\"id\":\"u\",\"version\":\"1\"\x7d"
    let outcome (token : String) : Bool × List (Nat × List String) :=
      let r : Http.Reply := ⟨200, [("Authorization", "Bearer " ++ token)], user, true⟩
      let actions : List Action :=
        [.take 0, .send 0, .hear 0 (.reply r), .store 0, .leave 0, .take 1, .send 1]
      ((Service.login r).2.isOk, (run service call actions .start).trace.filterMap fun
        | .sent k _ e => some (k, (e.request service.userAgent).authorization)
        | _ => none)
    outcome "Bearer x" = (true, [(0, []), (1, ["x"])]) ∧
      outcome "" = (true, [(0, []), (1, ["Bearer"])]) ∧
      Http.Carries "Bearer x" ∧ Http.Carries "" := by
  intro service call user outcome
  refine ⟨?_, ?_, ⟨by simp, by decide, by decide⟩, ⟨by simp, by decide, by decide⟩⟩
  · decide +kernel
  · decide +kernel

end Sharing

end StorageControl
