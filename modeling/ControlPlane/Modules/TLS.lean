import ControlPlane.Text

/-!
# The TLS settings of a connection

`BuildTLSConfig` makes of the TLS options the settings with which a module dials its server. It
reads the certificate authorities and the client certificate from files, and it gives no settings
at all only if no option is set: a file that cannot be used is an error, not a client without
settings.
-/

namespace ControlPlane

/-- `TLSOptions`. -/
structure TLSOptions where
  caFile : String
  certFile : String
  keyFile : String
  serverName : String
  insecureSkipVerify : Bool
  deriving DecidableEq

/-- What reading a file, parsing its certificates and loading a key pair give. A certificate stands
for the text of its key pair. -/
structure Files where
  readFile : String → Except String String
  appendCertsFromPEM : String → Bool
  loadX509KeyPair : String → String → Except String String

/-- `tls.Config`. The pool stands for the text that its certificates were read from. -/
structure TLSConfig where
  minVersion : ℕ
  serverName : String
  insecureSkipVerify : Bool
  rootCAs : Option String
  certificates : List String
  deriving DecidableEq

namespace TLSOptions

variable (files : Files) (opts : TLSOptions)

/-- The certificate authorities, from the file that is set. -/
def rootCAs : Except String (Option String) :=
  if opts.caFile = "" then .ok none
  else
    match files.readFile opts.caFile with
    | .error err => .error ("read ca file: " ++ err)
    | .ok ca =>
        if files.appendCertsFromPEM ca then .ok (some ca) else .error "append ca certs failed"

/-- The client certificate, which needs both files. -/
def certificates : Except String (List String) :=
  if opts.certFile = "" ∧ opts.keyFile = "" then .ok []
  else if opts.certFile = "" ∨ opts.keyFile = "" then
    .error "both cert and key files are required for mTLS client certs"
  else
    match files.loadX509KeyPair opts.certFile opts.keyFile with
    | .error err => .error ("load client cert/key: " ++ err)
    | .ok cert => .ok [cert]

/-- No option is set. -/
def plain : Prop :=
  opts.caFile = "" ∧ opts.certFile = "" ∧ opts.keyFile = "" ∧ opts.serverName = "" ∧
    opts.insecureSkipVerify = false

instance : Decidable opts.plain := by
  unfold plain
  infer_instance

end TLSOptions

/-- `BuildTLSConfig`. -/
def buildTLSConfig (files : Files) (opts : TLSOptions) : Except String (Option TLSConfig) :=
  if opts.plain then .ok none
  else do
    let rootCAs ← opts.rootCAs files
    let certificates ← opts.certificates files
    return some ⟨0x0303, opts.serverName, opts.insecureSkipVerify, rootCAs, certificates⟩

/-- The settings are those that the options ask for, with what the files hold. -/
structure TLSConfig.Follows (config : TLSConfig) (files : Files) (opts : TLSOptions) : Prop where
  minVersion : config.minVersion = 0x0303
  serverName : config.serverName = opts.serverName
  insecureSkipVerify : config.insecureSkipVerify = opts.insecureSkipVerify
  rootCAs : (opts.caFile = "" ∧ config.rootCAs = none) ∨
    (opts.caFile ≠ "" ∧ ∃ ca, files.readFile opts.caFile = .ok ca ∧
      files.appendCertsFromPEM ca = true ∧ config.rootCAs = some ca)
  certificates : (opts.certFile = "" ∧ opts.keyFile = "" ∧ config.certificates = []) ∨
    (opts.certFile ≠ "" ∧ opts.keyFile ≠ "" ∧ ∃ cert,
      files.loadX509KeyPair opts.certFile opts.keyFile = .ok cert ∧ config.certificates = [cert])

/-- There are no settings exactly if no option is set; otherwise they are those that the options
ask for. -/
def Complies (files : Files) (opts : TLSOptions) : Option TLSConfig → Prop
  | none => opts.plain
  | some config => ¬opts.plain ∧ config.Follows files opts

section TLS

variable {files : Files} {opts : TLSOptions}

/-- The authorities come from the file that is set, if one is. -/
theorem rootCAs_of_ok {pool : Option String} (h : opts.rootCAs files = .ok pool) :
    (opts.caFile = "" ∧ pool = none) ∨ (opts.caFile ≠ "" ∧ ∃ ca,
      files.readFile opts.caFile = .ok ca ∧ files.appendCertsFromPEM ca = true ∧
        pool = some ca) := by
  unfold TLSOptions.rootCAs at h
  split_ifs at h with hfile
  · cases h
    exact .inl ⟨hfile, rfl⟩
  · split at h
    · cases h
    · rename_i ca hread
      split_ifs at h with hpem
      cases h
      exact .inr ⟨hfile, ca, hread, hpem, rfl⟩

/-- The certificate comes from the files that are set, if they are. -/
theorem certificates_of_ok {certs : List String} (h : opts.certificates files = .ok certs) :
    (opts.certFile = "" ∧ opts.keyFile = "" ∧ certs = []) ∨
      (opts.certFile ≠ "" ∧ opts.keyFile ≠ "" ∧ ∃ cert,
        files.loadX509KeyPair opts.certFile opts.keyFile = .ok cert ∧ certs = [cert]) := by
  unfold TLSOptions.certificates at h
  split_ifs at h with hnone hone
  · cases h
    exact .inl ⟨hnone.1, hnone.2, rfl⟩
  · rw [not_or] at hone
    split at h
    · cases h
    · rename_i cert hload
      cases h
      exact .inr ⟨hone.1, hone.2, cert, hload, rfl⟩

/-- What `BuildTLSConfig` returns complies with the options. -/
theorem complies_of_ok {tls : Option TLSConfig} (h : buildTLSConfig files opts = .ok tls) :
    Complies files opts tls := by
  unfold buildTLSConfig at h
  split_ifs at h with hplain
  · cases h
    exact hplain
  · cases hroots : opts.rootCAs files with
    | error err =>
      rw [hroots] at h
      cases h
    | ok pool =>
      cases hcerts : opts.certificates files with
      | error err =>
        rw [hroots, hcerts] at h
        cases h
      | ok certs =>
        rw [hroots, hcerts] at h
        cases h
        exact ⟨hplain, rfl, rfl, rfl, rootCAs_of_ok hroots, certificates_of_ok hcerts⟩

end TLS

end ControlPlane
