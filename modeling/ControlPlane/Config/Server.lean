import ControlPlane.Config.Settings

/-!
# The configuration of the server

The fields of the configuration that only the HTTP server and the background loops read.
Tokens are read as lists; their expirations, like the overrides of the subject limits, as
entries `name=number`, in which the name ends at the first equals sign.
-/

namespace ControlPlane

open Text

/-- An entry `name=number`. -/
def numberRule (entry : List Char) : Option (String × ℤ) :=
  (cut '=' entry).bind fun parts =>
    let k := trimSpace parts.1
    if k = [] then none
    else (parseInt (trimSpace parts.2)).map fun n => (String.ofList k, n)

def parseIntMap (env : Environment) (key : String) : String → Option ℤ :=
  parseRules ',' numberRule (env.getenv key)

def parseInt64Map (env : Environment) (key : String) : String → Option ℤ :=
  parseRules ',' numberRule (env.getenv key)

/-- The entry is read as the number `n` for the name: the name, an equals sign that is the
first one of the entry, and a number of 64 bits. -/
def IsNumberRule (name : String) (entry : List Char) (n : ℤ) : Prop :=
  ∃ a v, entry = a ++ '=' :: v ∧ '=' ∉ a ∧ name ≠ "" ∧ name = String.ofList (trimSpace a) ∧
    parseInt (trimSpace v) = some n

/-- The numbers that are read are the well-formed ones. -/
theorem numberRule_trimSpace {name : String} {entry : List Char} {n : ℤ} :
    IsNumberRule name entry n ↔ numberRule (trimSpace entry) = some (name, n) := by
  constructor
  · rintro ⟨a, v, rfl, ha, hne, rfl, hn⟩
    refine Option.bind_eq_some_iff.mpr ⟨_, (cut_trimSpace (by decide)).mpr ⟨a, v, rfl, ha, rfl⟩, ?_⟩
    have hname : trimSpace a ≠ [] := fun hnil => hne (by rw [hnil, String.ofList_nil])
    simp only [trimSpace_dropWhile, trimSpace_rdropWhile]
    rw [if_neg hname, hn, Option.map_some]
  · intro h
    obtain ⟨parts, hcut, h⟩ := Option.bind_eq_some_iff.mp h
    obtain ⟨a, v, rfl, ha, rfl⟩ := (cut_trimSpace (by decide)).mp hcut
    simp only [trimSpace_dropWhile, trimSpace_rdropWhile] at h
    split_ifs at h with hname
    obtain ⟨n', hn, heq⟩ := Option.map_eq_some_iff.mp h
    cases heq
    refine ⟨a, v, rfl, ha, ?_, rfl, hn⟩
    intro hempty
    exact hname (by simpa using congrArg String.toList hempty)

/-- `config.Config`, with the fields that the server and its loops read. -/
structure ServerSettings extends Settings where
  cleanupIntervalMs : ℤ
  moduleStartRetryBackoffMs : ℤ
  apiBearerToken : String
  apiPublishTokens : List String
  apiReadTokens : List String
  apiAdminTokens : List String
  apiTokenExpirations : String → Option ℤ
  disableAPITokenAuth : Bool
  authFailureMaxAttempts : ℤ
  authFailureBlockSeconds : ℤ
  outboxRelayIntervalMs : ℤ

def ServerSettings.fromEnv (env : Environment) : ServerSettings where
  toSettings := Settings.fromEnv env
  cleanupIntervalMs := intOr env "CLEANUP_INTERVAL_MS" 30000
  moduleStartRetryBackoffMs := intOr env "MODULE_START_RETRY_BACKOFF_MS" 1000
  apiBearerToken := envOr env "API_BEARER_TOKEN" ""
  apiPublishTokens := splitOr env "API_ACL_PUBLISH_TOKENS" ""
  apiReadTokens := splitOr env "API_ACL_READ_TOKENS" ""
  apiAdminTokens := splitOr env "API_ACL_ADMIN_TOKENS" ""
  apiTokenExpirations := parseInt64Map env "API_TOKEN_EXPIRATIONS"
  disableAPITokenAuth := boolOr env "DISABLE_API_TOKEN_AUTH" false
  authFailureMaxAttempts := intOr env "AUTH_FAILURE_MAX_ATTEMPTS" 10
  authFailureBlockSeconds := intOr env "AUTH_FAILURE_BLOCK_SECONDS" 300
  outboxRelayIntervalMs := intOr env "OUTBOX_RELAY_INTERVAL_MS" 1500

/-- `config.Config`, with the fields that only `Run` and the handlers around its routes read. -/
structure RunSettings extends ServerSettings where
  moduleStartRetryMax : ℤ
  corsAllowedOrigins : List String
  hstsEnabled : Bool
  cspHeader : String
  securityHeadersEnabled : Bool

def RunSettings.fromEnv (env : Environment) : RunSettings where
  toServerSettings := ServerSettings.fromEnv env
  moduleStartRetryMax := intOr env "MODULE_START_RETRY_MAX" 4
  corsAllowedOrigins := splitOr env "CORS_ALLOWED_ORIGINS" ""
  hstsEnabled := boolOr env "HSTS_ENABLED" false
  cspHeader := envOr env "CSP_HEADER" "default-src 'none'; frame-ancestors 'none'; base-uri 'none'"
  securityHeadersEnabled := boolOr env "SECURITY_HEADERS_ENABLED" true

end ControlPlane
