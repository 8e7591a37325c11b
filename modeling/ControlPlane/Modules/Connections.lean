import ControlPlane.Handles
import ControlPlane.Modules.Hosts
import ControlPlane.Modules.TLS
import ControlPlane.App.Lifecycle

/-!
# The connections of the modules

`Start` of each module builds the TLS settings, dials its server and prepares it, and on the way
out of an error it closes what it has opened; `Stop` closes what `Start` has left in the fields of
the module, except that the bus connection is handed to `Drain` and closed only if that fails. Each
of them is a program that opens and closes handles, and what it owes is proved by the rules for
such programs, call by call.
-/

namespace ControlPlane

open Handles

/-- The options of `nats` that carry a secret. -/
inductive NatsAuth
  | none
  | token (token : String)
  | userInfo (user password : String)
  deriving DecidableEq

/-- `gocql.SslOptions`. -/
structure SslOptions where
  config : TLSConfig
  enableHostVerification : Bool
  deriving DecidableEq

/-- What a module has to release: connections and sessions, with the settings they were made with,
and the context of the goroutines that campaign for the leadership. -/
inductive Handle
  | natsConn (url : String) (auth : NatsAuth) (tls : Option TLSConfig)
  | etcdClient (endpoints : List String) (username password : String) (tls : Option TLSConfig)
  | etcdSession (ttl : ℕ)
  | election (key : String)
  | cassandraSession (hosts : List String) (port : ℤ) (keyspace : String)
      (auth : Option (String × String)) (ssl : Option SslOptions)
  deriving DecidableEq

/-- The settings that `main` hands to the three modules. -/
structure ModuleSettings where
  natsURL : String
  natsStream : String
  natsUser : String
  natsPassword : String
  natsToken : String
  etcdEndpoints : List String
  leaderElectionKey : String
  etcdUser : String
  etcdPassword : String
  cassandraHosts : List String
  cassandraKeyspace : String
  cassandraUser : String
  cassandraPassword : String
  tls : TLSOptions

/-- The settings of the stream that `natsbus` adds. The storage is in files, the retention by
limits, and old messages are discarded. -/
structure StreamConfig where
  name : String
  subjects : List String
  maxAge : Duration

/-- The errors that the calls in one `Start` of a module return. -/
structure StartReplies where
  files : Files
  connect : Option String
  jetStream : Option String
  streamInfo : String → Option String
  addStream : StreamConfig → Option String
  newClient : Option String
  newSession : Option String
  createSession : Handle → Option String
  exec : Handle → String → Option String

/-- The errors that the calls in `Stop` return. -/
structure StopReplies where
  drain : Option String
  closeClient : Option String

/-- What `Start` of `etcdcoord` leaves in the fields of the module. -/
structure EtcdFields where
  cancel : Handle
  session : Handle
  client : Handle
  deriving DecidableEq

/-- The keyspace that `Start` of `cassstore` creates. -/
def createKeyspace (keyspace : String) : String :=
  "CREATE KEYSPACE IF NOT EXISTS " ++ keyspace ++
    " WITH replication = \x7b'class':'SimpleStrategy','replication_factor':1\x7d"

/-- A statement that creates a table with the given columns and key. -/
def createTable (name : String) (lines : List String) (options : String) : String :=
  "CREATE TABLE IF NOT EXISTS " ++ name ++ " (\n" ++ ",\n".intercalate lines ++ "\n)" ++ options

/-- The tables that `Start` of `cassstore` creates. -/
def ddl : List String := [
  createTable "events_by_stream" ["stream text", "occurred_at timestamp", "event_id timeuuid",
    "subject text", "event_type text", "payload text",
    "PRIMARY KEY ((stream), occurred_at, event_id)"]
    " WITH CLUSTERING ORDER BY (occurred_at DESC, event_id DESC)",
  createTable "events_by_id" ["event_id timeuuid PRIMARY KEY", "stream text",
    "occurred_at timestamp", "subject text", "event_type text", "payload text"] "",
  createTable "idempotency_keys" ["stream text", "idempotency_key text", "event_id timeuuid",
    "payload_hash text", "created_at timestamp", "PRIMARY KEY ((stream), idempotency_key)"] "",
  createTable "idempotency_by_created" ["bucket text", "created_at timestamp", "stream text",
    "idempotency_key text", "event_id timeuuid",
    "PRIMARY KEY ((bucket), created_at, stream, idempotency_key)"] "",
  createTable "outbox_events" ["event_id timeuuid PRIMARY KEY", "stream text", "subject text",
    "event_type text", "payload text", "occurred_at timestamp", "publish_state text",
    "published_at timestamp", "broker_message_id text"] "",
  createTable "outbox_retry_state" ["event_id timeuuid PRIMARY KEY", "retry_count int",
    "next_attempt_at timestamp", "last_error text", "lease_owner text", "lease_until timestamp",
    "quarantined boolean", "quarantined_at timestamp", "first_failed_at timestamp"] "",
  createTable "outbox_by_state" ["publish_state text", "occurred_at timestamp",
    "event_id timeuuid", "stream text", "subject text", "event_type text", "payload text",
    "PRIMARY KEY ((publish_state), occurred_at, event_id)"]
    " WITH CLUSTERING ORDER BY (occurred_at ASC, event_id ASC)",
  createTable "inbox_consumed" ["consumer text", "message_id text", "consumed_at timestamp",
    "PRIMARY KEY ((consumer), message_id)"] "",
  createTable "dead_letters_by_time" ["bucket text", "quarantined_at timestamp",
    "event_id timeuuid", "stream text", "subject text", "event_type text", "payload text",
    "retry_count int", "last_error text", "PRIMARY KEY ((bucket), quarantined_at, event_id)"] "",
  createTable "dead_letters_by_id" ["event_id timeuuid PRIMARY KEY", "quarantined_at timestamp",
    "stream text", "subject text", "event_type text", "payload text", "retry_count int",
    "last_error text"] ""]

namespace ModuleSettings

variable (s : ModuleSettings) (r : StartReplies)

/-- A token is preferred to a user. -/
def natsAuth : NatsAuth :=
  if s.natsToken ≠ "" then .token s.natsToken
  else if s.natsUser ≠ "" then .userInfo s.natsUser s.natsPassword
  else .none

/-- The stream that is added if there is none, which keeps its messages for a week. -/
def streamConfig : StreamConfig := ⟨s.natsStream, ["events.>"], 7 * 24 * 3600 * 1000000000⟩

/-- `Start` of `natsbus`. -/
def natsStart : Prog Handle String Handle := do
  let tlsConfig ← .ofExcept (buildTLSConfig r.files s.tls)
  let nc := .natsConn s.natsURL s.natsAuth tlsConfig
  .check r.connect
  .opens nc
  .closeOnError nc r.jetStream
  .closeOnError nc ((r.streamInfo s.natsStream).bind fun _ => r.addStream s.streamConfig)
  return nc

/-- `Stop` of `natsbus`. A connection that cannot be drained is closed at once. Otherwise `Drain`
returns while the connection is still open, and the client closes it when it is drained. -/
def natsStop (r : StopReplies) : Option Handle → Prog Handle String Unit
  | none => return ()
  | some nc => .closeOnError nc r.drain

/-- `Start` of `etcdcoord`. -/
def etcdStart : Prog Handle String EtcdFields := do
  let tlsConfig ← .ofExcept (buildTLSConfig r.files s.tls)
  let client := .etcdClient s.etcdEndpoints s.etcdUser s.etcdPassword tlsConfig
  .check r.newClient
  .opens client
  .closeOnError client r.newSession
  let session := .etcdSession 10
  .opens session
  let election := .election s.leaderElectionKey
  .opens election
  return ⟨election, session, client⟩

/-- `Stop` of `etcdcoord`. The error of closing the session is dropped. -/
def etcdStop (r : StopReplies) : Option EtcdFields → Prog Handle String Unit
  | none => return ()
  | some fields => do
      .closes fields.cancel
      .closes fields.session
      .closes fields.client
      .check r.closeClient

/-- The settings of a session of `cassstore`, which has a keyspace only once there is one. -/
def cassandraSession (tlsConfig : Option TLSConfig) (keyspace : String) : Handle :=
  .cassandraSession (normalizeHosts s.cassandraHosts).1 (normalizeHosts s.cassandraHosts).2 keyspace
    (if s.cassandraUser ≠ "" then some (s.cassandraUser, s.cassandraPassword) else none)
    (tlsConfig.map fun config => ⟨config, !s.tls.insecureSkipVerify⟩)

/-- `Start` of `cassstore`. -/
def cassandraStart : Prog Handle String Handle := do
  let tlsConfig ← .ofExcept (buildTLSConfig r.files s.tls)
  let bootstrap := s.cassandraSession tlsConfig ""
  .check (r.createSession bootstrap)
  .opens bootstrap
  .deferClose bootstrap do
    .check (r.exec bootstrap (createKeyspace s.cassandraKeyspace))
    let session := s.cassandraSession tlsConfig s.cassandraKeyspace
    .check (r.createSession session)
    .opens session
    ddl.forM fun cql => .closeOnError session (r.exec session cql)
    return session

/-- `Stop` of `cassstore`. -/
def cassandraStop : Option Handle → Prog Handle String Unit
  | none => return ()
  | some session => .closes session

end ModuleSettings

/-- The TLS settings that a client is handed when it is created, for the handles that are clients.
What a client makes of them also depends on the scheme of the address that it dials. -/
def Handle.tlsConfig : Handle → Option (Option TLSConfig)
  | .natsConn _ _ tls | .etcdClient _ _ _ tls => some tls
  | .cassandraSession _ _ _ _ ssl => some (ssl.map SslOptions.config)
  | .etcdSession _ | .election _ => none

/-- Whether a session of `cassstore` that is handed TLS settings is to verify the host. -/
def Handle.hostVerification : Handle → Option Bool
  | .cassandraSession _ _ _ _ ssl => ssl.map SslOptions.enableHostVerification
  | .natsConn _ _ _ | .etcdClient _ _ _ _ | .etcdSession _ | .election _ => none

/-- The TLS settings that the client is handed, if the handle is one, comply with the options. -/
structure Handle.Complies (files : Files) (opts : TLSOptions) (d : Handle) : Prop where
  tlsConfig : ∀ tls ∈ d.tlsConfig, ControlPlane.Complies files opts tls
  hostVerification : ∀ verified ∈ d.hostVerification, verified = !opts.insecureSkipVerify

/-- A client without host verification complies if its settings do. -/
theorem Handle.Complies.of_tlsConfig {files : Files} {opts : TLSOptions} {d : Handle}
    {tls : Option TLSConfig} (hd : d.tlsConfig = some tls) (hhost : d.hostVerification = none)
    (h : ControlPlane.Complies files opts tls) : d.Complies files opts := by
  constructor
  · intro t ht
    rw [hd] at ht
    cases ht
    exact h
  · intro verified hverified
    rw [hhost] at hverified
    cases hverified

section Programs

variable (s : ModuleSettings) (r : StartReplies)

/-- `Start` of `natsbus` ends with the connection or with nothing. -/
theorem natsStart_uses :
    Uses (Handle.Complies r.files s.tls) 0 (s.natsStart r) fun nc => {nc} := by
  refine Uses.ofExcept_bind fun tls htls => Uses.check.bind fun _ => ?_
  have hcomplies : (Handle.natsConn s.natsURL s.natsAuth tls).Complies r.files s.tls :=
    .of_tlsConfig rfl rfl (complies_of_ok htls)
  refine (Uses.opens hcomplies).bind fun _ => ?_
  exact Uses.closeOnError.bind fun _ => Uses.closeOnError.bind fun _ => .pure rfl

/-- What `Start` of `natsbus` leaves is a connection to the bus that is set. -/
theorem natsStart_dials {nc : Handle} (h : (s.natsStart r).result = .ok nc) :
    ∃ tls, nc = .natsConn s.natsURL s.natsAuth tls := by
  have hends : (s.natsStart r).Ends fun nc => ∃ tls, nc = .natsConn s.natsURL s.natsAuth tls := by
    refine .bind fun tls => .bind fun _ => .bind fun _ => .bind fun _ => .bind fun _ => ?_
    exact .pure ⟨tls, rfl⟩
  exact hends nc h

/-- `Start` of `etcdcoord` ends with the client, its session and its campaign, or with nothing. -/
theorem etcdStart_uses : Uses (Handle.Complies r.files s.tls) 0 (s.etcdStart r)
    fun fields => fields.cancel ::ₘ fields.session ::ₘ {fields.client} := by
  refine Uses.ofExcept_bind fun tls htls => Uses.check.bind fun _ => ?_
  have hcomplies : (Handle.etcdClient s.etcdEndpoints s.etcdUser s.etcdPassword tls).Complies
      r.files s.tls := .of_tlsConfig rfl rfl (complies_of_ok htls)
  refine (Uses.opens hcomplies).bind fun _ => Uses.closeOnError.bind fun _ => ?_
  have hsession : (Handle.etcdSession 10).Complies r.files s.tls := ⟨nofun, nofun⟩
  have helection : (Handle.election s.leaderElectionKey).Complies r.files s.tls := ⟨nofun, nofun⟩
  exact (Uses.opens hsession).bind fun _ => (Uses.opens helection).bind fun _ => .pure rfl

/-- The settings of a session comply if those that it is given do. -/
theorem cassandraSession_complies {tls : Option TLSConfig} {keyspace : String}
    (h : Complies r.files s.tls tls) :
    (s.cassandraSession tls keyspace).Complies r.files s.tls := by
  constructor
  · intro t ht
    cases ht
    cases tls <;> exact h
  · intro verified hverified
    cases tls with
    | none => cases hverified
    | some config =>
      cases hverified
      rfl

/-- `Start` of `cassstore` ends with the session of the keyspace or with nothing. -/
theorem cassandraStart_uses :
    Uses (Handle.Complies r.files s.tls) 0 (s.cassandraStart r) fun session => {session} := by
  refine Uses.ofExcept_bind fun tls htls => Uses.check.bind fun _ => ?_
  have hcomplies := complies_of_ok htls
  refine (Uses.opens (cassandraSession_complies s r hcomplies)).bind fun _ => ?_
  refine Uses.deferClose (Uses.check.bind fun _ => Uses.check.bind fun _ => ?_)
  refine (Uses.opens (cassandraSession_complies s r hcomplies)).bind fun _ => ?_
  exact (Uses.forM (fun _ => Uses.closeOnError) ddl).bind fun _ => .pure rfl

variable {P : Handle → Prop} (r : StopReplies)

/-- `Stop` of `natsbus` leaves the connection open unless it returns an error. -/
theorem natsStop_uses (nc : Handle) :
    Uses P {nc} (ModuleSettings.natsStop r (some nc)) fun _ => {nc} :=
  .closeOnError

/-- `Stop` of `etcdcoord` closes all that `Start` has left, with or without an error. -/
theorem etcdStop_uses (fields : EtcdFields) :
    Uses P (fields.cancel ::ₘ fields.session ::ₘ {fields.client})
      (ModuleSettings.etcdStop r (some fields)) fun _ => 0 :=
  Uses.closes.bind fun _ => Uses.closes.bind fun _ => Uses.closes.bind fun _ => .check

/-- `Stop` of `cassstore` closes the session. -/
theorem cassandraStop_uses (session : Handle) :
    Uses P {session} (ModuleSettings.cassandraStop (some session)) fun _ => 0 :=
  .closes

end Programs

end ControlPlane
