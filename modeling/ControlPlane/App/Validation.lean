import ControlPlane.Config.Settings
import ControlPlane.Json.Decode
import ControlPlane.Json.Completeness

/-!
# From a request to the store

Before `handlePublishEvent` calls the store, it decodes the body of the request, fills in the
defaults and validates the result against the configuration. A request that passes becomes the
task `publish` of a process. The gate is followed here from the environment variables to the
event that is appended.
-/

namespace ControlPlane

/-- What `validatePublishRequest` finds wrong with a request. -/
inductive ValidationError
  | unknownType (eventType : String)
  | notJSON
  | notObject
  | versionOutOfRange (version : ℤ) (rule : VersionRange) (eventType : String)
  | missingField (field eventType : String)
  deriving DecidableEq

/-- The text of the error; `quote` is the format `%q`. -/
def ValidationError.text (quote : String → String) : ValidationError → String
  | .unknownType eventType => "unknown event type " ++ quote eventType
  | .notJSON => "payload must be valid JSON"
  | .notObject => "payload must be a JSON object"
  | .versionOutOfRange version rule eventType =>
      "schema_version " ++ toString version ++ " out of allowed range " ++ toString rule.min ++
        "-" ++ toString rule.max ++ " for type " ++ eventType
  | .missingField field eventType =>
      "missing required payload field " ++ quote field ++ " for type " ++ eventType

namespace Settings

variable (c : Settings)

def isKnownEventType (eventType : String) : Bool :=
  eventType ≠ "" ∧ (c.eventTypes = [] ∨ eventType ∈ c.eventTypes)

/-- The version is outside the bounds of the rule for the type. -/
def versionError (req : PublishRequest) : Option ValidationError :=
  match c.schemaVersionRules req.eventType with
  | some rule =>
      if req.schemaVersion < rule.min ∨ rule.max < req.schemaVersion then
        some (.versionOutOfRange req.schemaVersion rule req.eventType)
      else none
  | none => none

/-- The first required field that is no key of the payload. -/
def fieldError (req : PublishRequest) (members : List (String × Json)) : Option ValidationError :=
  match c.schemaRequiredFields req.eventType with
  | some fields =>
      (fields.find? fun f => f ∉ members.map Prod.fst).map fun f => .missingField f req.eventType
  | none => none

def validatePublishRequest (req : PublishRequest) : Option ValidationError :=
  if c.rejectUnknownEventTypes ∧ !c.isKnownEventType req.eventType then
    some (.unknownType req.eventType)
  else
    match Json.unmarshal req.payload.toList with
    | none => some .notJSON
    | some (.obj members) => (c.versionError req).or (c.fieldError req members)
    | some _ => some .notObject

end Settings

/-- The fields of `publishRequest`. -/
inductive RequestField
  | stream
  | subject
  | eventType
  | schemaVersion
  | idempotencyKey
  | payload
  deriving DecidableEq

/-- The field to which the decoder assigns the member with this name. -/
def RequestField.ofName (name : String) : Option RequestField :=
  match Json.foldName name with
  | "stream" => some .stream
  | "subject" => some .subject
  | "type" => some .eventType
  | "schema_version" => some .schemaVersion
  | "idempotency_key" => some .idempotencyKey
  | "payload" => some .payload
  | _ => none

/-- Decode one member of the body. Members that match no field are skipped, and the payload
keeps its text. -/
def PublishRequest.assign (req : PublishRequest) (m : String × Json × String) :
    Option PublishRequest :=
  match RequestField.ofName m.1 with
  | some .stream => (Json.decodeString req.stream m.2.1).map fun s => { req with stream := s }
  | some .subject => (Json.decodeString req.subject m.2.1).map fun s => { req with subject := s }
  | some .eventType =>
      (Json.decodeString req.eventType m.2.1).map fun s => { req with eventType := s }
  | some .schemaVersion =>
      (Json.decodeInt req.schemaVersion m.2.1).map fun n => { req with schemaVersion := n }
  | some .idempotencyKey =>
      (Json.decodeString req.idempotencyKey m.2.1).map fun s => { req with idempotencyKey := s }
  | some .payload => some { req with payload := m.2.2 }
  | none => some req

/-- The characters that fit into the first `n` bytes. -/
def takeBytes : ℕ → List Char → List Char
  | _, [] => []
  | n, c :: l => if c.utf8Size ≤ n then c :: takeBytes (n - c.utf8Size) l else []

/-- The body of a request, decoded from its first `limit` bytes. -/
def decodeRequest (limit : ℤ) (body : String) : Option PublishRequest :=
  let data := takeBytes limit.toNat body.toList
  Json.decodeStruct PublishRequest.assign {} (data = body.toList) data

/-- A request `POST /events`: its body and its header `Idempotency-Key`. -/
structure PublishCall where
  body : String
  header : String
  deriving DecidableEq

/-- What the gate of a node reads besides its configuration: whether the publish lane has room,
whether bus and store are configured, the coordinator's flag and leader, and the subjects that
are within their rate limit. -/
structure Frontend where
  settings : Settings
  laneFree : Bool
  wired : Bool
  coord : Option (Bool × String)
  subjectAllowed : String → Bool

/-- The answers with which `handlePublishEvent` refuses a request before it calls the store. -/
inductive Refusal
  | laneBusy
  | notConfigured
  | follower (leaderID : String)
  | invalidBody
  | invalid (err : ValidationError)
  | subjectLimited
  deriving DecidableEq

def Refusal.status : Refusal → ℕ
  | .laneBusy | .follower _ => 503
  | .notConfigured => 500
  | .invalidBody | .invalid _ => 400
  | .subjectLimited => 429

def Refusal.text (quote : String → String) : Refusal → String
  | .laneBusy => "publish lane busy"
  | .notConfigured => "event bus/store not configured"
  | .follower leaderID => "write rejected on follower; leader=" ++ leaderID
  | .invalidBody => "invalid json body"
  | .invalid err => "validation error: " ++ err.text quote
  | .subjectLimited => "subject rate limit exceeded"

/-- The node rejects writes because another node leads. -/
def Frontend.follows (f : Frontend) : Option String :=
  match f.coord with
  | some (isLeader, leaderID) =>
      if f.settings.requireLeaderForWrites ∧ !isLeader then some leaderID else none
  | none => none

/-- The part of `handlePublishEvent` behind its check for the leadership, up to the call of the
store's append: the refusal, or the decoded body. -/
def Settings.accept (c : Settings) (subjectAllowed : String → Bool) (call : PublishCall) :
    Except Refusal PublishRequest :=
  match decodeRequest c.maxRequestBodyBytes call.body with
  | none => .error .invalidBody
  | some body =>
      let req := body.withDefaults call.header
      match c.validatePublishRequest req with
      | some err => .error (.invalid err)
      | none => if subjectAllowed req.subject then .ok body else .error .subjectLimited

/-- `handlePublishEvent` up to the call of the store's append: the refusal, or the request with
its defaults whose event is appended. -/
def Frontend.handlePublishEvent (f : Frontend) (call : PublishCall) :
    Except Refusal PublishRequest :=
  if !f.laneFree then .error .laneBusy
  else if !f.wired then .error .notConfigured
  else
    match f.follows with
    | some leaderID => .error (.follower leaderID)
    | none =>
        (f.settings.accept f.subjectAllowed call).map fun body => body.withDefaults call.header

section Gate

variable {c : Settings} {req : PublishRequest}

theorem Settings.validatePublishRequest_eq_none (h : c.validatePublishRequest req = none) :
    (c.rejectUnknownEventTypes = true → c.isKnownEventType req.eventType = true) ∧
      ∃ members, Json.unmarshal req.payload.toList = some (.obj members) ∧
        c.versionError req = none ∧ c.fieldError req members = none := by
  unfold Settings.validatePublishRequest at h
  split_ifs at h with hunknown
  refine ⟨by simpa using hunknown, ?_⟩
  split at h
  · cases h
  · rename_i members hpayload
    exact ⟨members, hpayload, Option.or_eq_none_iff.mp h⟩
  · cases h

theorem Settings.versionError_eq_none {rule : VersionRange} (h : c.versionError req = none)
    (hrule : c.schemaVersionRules req.eventType = some rule) :
    rule.min ≤ req.schemaVersion ∧ req.schemaVersion ≤ rule.max := by
  unfold Settings.versionError at h
  simp only [hrule] at h
  split_ifs at h with hout
  omega

theorem Settings.fieldError_eq_none {members : List (String × Json)} {fields : List String}
    (h : c.fieldError req members = none)
    (hrule : c.schemaRequiredFields req.eventType = some fields) :
    ∀ f ∈ fields, f ∈ members.map Prod.fst := by
  unfold Settings.fieldError at h
  simp only [hrule, Option.map_eq_none_iff, List.find?_eq_none] at h
  intro f hf
  simpa using h f hf

/-- A body that is admitted was decoded, and with its defaults it is valid. -/
theorem Settings.accept_eq_ok {subjectAllowed : String → Bool} {call : PublishCall}
    {body : PublishRequest} (h : c.accept subjectAllowed call = .ok body) :
    decodeRequest c.maxRequestBodyBytes call.body = some body ∧
      c.validatePublishRequest (body.withDefaults call.header) = none := by
  unfold Settings.accept at h
  split at h
  · cases h
  · rename_i body' hbody
    dsimp only at h
    split at h
    · cases h
    · rename_i hvalid
      split_ifs at h
      cases h
      exact ⟨hbody, hvalid⟩

/-- A request that passes the gate was decoded, completed and validated. -/
theorem Frontend.handlePublishEvent_eq_ok {f : Frontend} {call : PublishCall}
    (h : f.handlePublishEvent call = .ok req) :
    ∃ body, decodeRequest f.settings.maxRequestBodyBytes call.body = some body ∧
      req = body.withDefaults call.header ∧ f.settings.validatePublishRequest req = none := by
  unfold Frontend.handlePublishEvent at h
  split_ifs at h
  split at h
  · cases h
  · cases haccept : f.settings.accept f.subjectAllowed call with
    | error refusal =>
      rw [haccept] at h
      cases h
    | ok body =>
      rw [haccept] at h
      cases h
      obtain ⟨hdecoded, hvalid⟩ := Settings.accept_eq_ok haccept
      exact ⟨body, hdecoded, rfl, hvalid⟩

end Gate

/-- In a valid configuration, known event types are entries of the registry. -/
theorem Settings.mem_registry_of_known {env : Environment} {eventType : String}
    (hvalid : (Settings.fromEnv env).validate = none)
    (hreject : (Settings.fromEnv env).rejectUnknownEventTypes = true)
    (hknown : (Settings.fromEnv env).isKnownEventType eventType = true) :
    ∃ entry ∈ (env.getenv "EVENT_TYPE_REGISTRY").toList.splitOn ',',
      trimSpace entry ≠ [] ∧ eventType = String.ofList (trimSpace entry) := by
  have hregistry := Settings.registry_of_validate hvalid hreject
  have hvalue : envOr env "EVENT_TYPE_REGISTRY" "" = env.getenv "EVENT_TYPE_REGISTRY" := by
    unfold envOr
    split_ifs with hunset
    · exact hunset.symm
    · rfl
  simp only [Settings.isKnownEventType, Settings.eventTypes_fromEnv, decide_eq_true_eq] at hknown
  have hmem : eventType ∈ splitOr env "EVENT_TYPE_REGISTRY" "" := hknown.2.resolve_left hregistry
  rw [splitOr, hvalue] at hmem
  exact mem_nonBlank.mp hmem

/-- The version rule of a type is the last well-formed one. -/
theorem Settings.versionRule_fromEnv {env : Environment} {eventType : String}
    {range : VersionRange}
    (h : LastRule ((env.getenv "EVENT_SCHEMA_VERSION_RULES").toList.splitOn ',')
      (IsVersionRule eventType) range) :
    (Settings.fromEnv env).schemaVersionRules eventType = some range :=
  (parseRules_eq_some (by decide) rfl fun _ _ => versionRule_trimSpace).mpr h

/-- The required fields of a type are those of its last rule. -/
theorem Settings.requiredFields_fromEnv {env : Environment} {eventType : String}
    {fields : List String}
    (h : LastRule ((env.getenv "EVENT_SCHEMA_REQUIRED_FIELDS").toList.splitOn ';')
      (IsRequiredFieldRule eventType) fields) :
    (Settings.fromEnv env).schemaRequiredFields eventType = some fields :=
  (parseRules_eq_some (by decide) rfl fun _ _ => requiredFieldRule_trimSpace).mpr h

/-- If `handlePublishEvent` calls the store's append under a valid configuration, the payload of
the event is a JSON object, its type is registered when unknown types are rejected, its schema
version is within the last well-formed rule for its type, and every field of the last
required-field rule for its type is a key of its payload. -/
theorem append_passes_gate {env : Environment} {f : Frontend} {call : PublishCall}
    {req : PublishRequest} (now : Time) (newID : UUID)
    (hsettings : f.settings = Settings.fromEnv env)
    (hvalid : (Settings.fromEnv env).validate = none)
    (h : f.handlePublishEvent call = .ok req) :
    ∃ body, decodeRequest f.settings.maxRequestBodyBytes call.body = some body ∧
      req = body.withDefaults call.header ∧
      (Task.publish body call.header newID).action f.settings.toConfig now =
        .call (.append (req.event now) newID) .appending ∧
      (∃ members, Json.Denotes (req.event now).payload.toList (.obj members)) ∧
      (boolOr env "REJECT_UNKNOWN_EVENT_TYPES" false = true →
        ∃ entry ∈ (env.getenv "EVENT_TYPE_REGISTRY").toList.splitOn ',',
          trimSpace entry ≠ [] ∧ (req.event now).eventType = String.ofList (trimSpace entry)) ∧
      (∀ range, LastRule ((env.getenv "EVENT_SCHEMA_VERSION_RULES").toList.splitOn ',')
        (IsVersionRule (req.event now).eventType) range →
        range.min ≤ req.schemaVersion ∧ req.schemaVersion ≤ range.max) ∧
      ∀ fields members, LastRule ((env.getenv "EVENT_SCHEMA_REQUIRED_FIELDS").toList.splitOn ';')
        (IsRequiredFieldRule (req.event now).eventType) fields →
        Json.Denotes (req.event now).payload.toList (.obj members) →
        ∀ x ∈ fields, x ∈ members.map Prod.fst := by
  obtain ⟨body, hbody, rfl, hpassed⟩ := Frontend.handlePublishEvent_eq_ok h
  rw [hsettings] at hpassed
  obtain ⟨hknown, members, hpayload, hversion, hfields⟩ :=
    Settings.validatePublishRequest_eq_none hpassed
  have hobject := Json.unmarshal_sound hpayload
  refine ⟨body, hbody, rfl, rfl, ⟨members, hobject⟩, ?_, ?_, ?_⟩
  · intro hreject
    exact Settings.mem_registry_of_known hvalid hreject (hknown hreject)
  · intro range hlast
    exact Settings.versionError_eq_none hversion (Settings.versionRule_fromEnv hlast)
  · intro fields members' hlast hobject'
    cases hobject.unique hobject'
    exact Settings.fieldError_eq_none hfields (Settings.requiredFields_fromEnv hlast)

/-- An environment that registers two types and requires fields and versions of one. -/
def orderEnv : Environment where
  getenv := fun key =>
    if key = "EVENT_TYPE_REGISTRY" then "order.created, order.paid"
    else if key = "REJECT_UNKNOWN_EVENT_TYPES" then "true"
    else if key = "EVENT_SCHEMA_VERSION_RULES" then "order.created:1-1,order.created:2-3"
    else if key = "EVENT_SCHEMA_REQUIRED_FIELDS" then "order.created=id|total"
    else ""
  hostname := none

/-- A node that serves requests under this environment. -/
def orderFrontend : Frontend where
  settings := Settings.fromEnv orderEnv
  laneFree := true
  wired := true
  coord := none
  subjectAllowed := fun _ => true

/-- The payload of a created order. -/
def orderPayload : String := "\x7b\"id\":1,\"total\":5\x7d"

/-- A request to publish a created order. -/
def orderCall : PublishCall where
  body := "\x7b\"type\":\"order.created\",\"schema_version\":2,\"payload\":" ++ orderPayload ++ "\x7d"
  header := "order-A1001-v1"

/-- The request passes the gate, and its event has a registered type, a version within the last
rule and the required fields. -/
theorem append_passes_gate_order : ∃ req members,
    (Settings.fromEnv orderEnv).validate = none ∧
    orderFrontend.handlePublishEvent orderCall = .ok req ∧
    Json.Denotes (req.event 5000000).payload.toList (.obj members) ∧
    (∃ entry ∈ "order.created, order.paid".toList.splitOn ',',
      trimSpace entry ≠ [] ∧ (req.event 5000000).eventType = String.ofList (trimSpace entry)) ∧
    2 ≤ req.schemaVersion ∧ req.schemaVersion ≤ 3 ∧
    ∀ x ∈ ["id", "total"], x ∈ members.map Prod.fst := by
  have hvalid : (Settings.fromEnv orderEnv).validate = none := by decide +kernel
  have hok : orderFrontend.handlePublishEvent orderCall = .ok
      { stream := "default", subject := "events.default", eventType := "order.created"
        schemaVersion := 2, idempotencyKey := "order-A1001-v1", payload := orderPayload } := by
    decide +kernel
  have hversions : LastRule ((orderEnv.getenv "EVENT_SCHEMA_VERSION_RULES").toList.splitOn ',')
      (IsVersionRule "order.created") ⟨2, 3⟩ :=
    ⟨["order.created:1-1".toList], "order.created:2-3".toList, [], by decide +kernel,
      ⟨"order.created".toList, ['2'], ['3'], by decide +kernel⟩, by simp⟩
  have hrequired : LastRule ((orderEnv.getenv "EVENT_SCHEMA_REQUIRED_FIELDS").toList.splitOn ';')
      (IsRequiredFieldRule "order.created") ["id", "total"] :=
    ⟨[], "order.created=id|total".toList, [], by decide +kernel,
      ⟨"order.created".toList, "id|total".toList, by decide +kernel⟩, by simp⟩
  obtain ⟨body, -, -, -, ⟨members, hobject⟩, htype, hversion, hfields⟩ :=
    append_passes_gate 5000000 1 rfl hvalid hok
  exact ⟨_, members, hvalid, hok, hobject, htype (by decide +kernel), (hversion _ hversions).1,
    (hversion _ hversions).2, hfields _ members hrequired hobject⟩

end ControlPlane
