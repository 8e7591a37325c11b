import ControlPlane.Http.Secure

/-!
# The expiry of tokens

A token is an entry of a list that is split at commas; its expiry is an entry `token=second`
that is split at the first equals sign. The two readings of the text of a token agree exactly
if the token has no equals sign. The expiry of a token that has one is dropped, and the token
is accepted for ever.
-/

namespace ControlPlane

open Text

/-- The entries that give the token `t` the expiry `n`: the token, an equals sign and the
number, with spaces around both. -/
def IsExpiry (t : String) (entry : List Char) (n : ℤ) : Prop :=
  ∃ a v, entry = a ++ '=' :: v ∧ trimSpace a = t.toList ∧ parseInt (trimSpace v) = some n

theorem ne_empty_of_mem_splitOr {env : Environment} {key fallback t : String}
    (h : t ∈ splitOr env key fallback) : t ≠ "" := by
  obtain ⟨piece, -, hne, rfl⟩ := mem_nonBlank.mp h
  intro hempty
  exact hne (by simpa using congrArg String.toList hempty)

/-- What is trimmed off a text are spaces. -/
theorem mem_trimSpace_iff {c : Char} {l : List Char} (hc : isSpace c = false) :
    c ∈ trimSpace l ↔ c ∈ l := by
  obtain ⟨w, w', hl, hw, hw'⟩ := exists_padding isSpace l
  have hmem : c ∈ w ++ trim isSpace l ++ w' ↔ c ∈ trim isSpace l := by
    simp [notMem_of_pos hc hw, notMem_of_pos hc hw']
  rw [← hl] at hmem
  exact hmem.symm

/-- For a token without an equals sign these are the entries that are read. -/
theorem isExpiry_iff {t : String} (hne : t ≠ "") (ht : '=' ∉ t.toList) (entry : List Char) (n : ℤ) :
    IsExpiry t entry n ↔ numberRule (trimSpace entry) = some (t, n) := by
  rw [← numberRule_trimSpace]
  constructor
  · rintro ⟨a, v, rfl, ha, hn⟩
    have hfirst : '=' ∉ a := by
      rw [← mem_trimSpace_iff (by decide), ha]
      exact ht
    exact ⟨a, v, rfl, hfirst, hne, by rw [ha, String.ofList_toList], hn⟩
  · rintro ⟨a, v, rfl, -, -, rfl, hn⟩
    exact ⟨a, v, rfl, String.toList_ofList.symm, hn⟩

/-- No name that is read has an equals sign. -/
theorem parseInt64Map_of_mem {env : Environment} {key t : String} (ht : '=' ∈ t.toList) :
    parseInt64Map env key t = none := by
  rw [Option.eq_none_iff_forall_ne_some]
  intro n hread
  obtain ⟨-, entry, -, -, hrule, -⟩ :=
    (parseRules_eq_some (by decide) rfl fun _ _ => numberRule_trimSpace).mp hread
  obtain ⟨a, v, -, ha, -, rfl, -⟩ := hrule
  rw [String.toList_ofList, mem_trimSpace_iff (by decide)] at ht
  exact ha ht

namespace ServerSettings

/-- The expiry of a token is read, and where tokens are checked no request with the token is
served after it. -/
structure Enforced (env : Environment) (t : String) (n : ℤ) : Prop where
  read : parseInt64Map env "API_TOKEN_EXPIRATIONS" t = some n
  refused : (fromEnv env).disableAPITokenAuth = false → ∀ scope r clock g,
    bearerToken r.authorization = t → n < unix clock.checked →
      ((fromEnv env).secure scope r clock g).1 ≠ .served

/-- An expiry that has passed is a refusal, whether or not the address is blocked. -/
theorem not_served_of_expired {c : ServerSettings} {scope : Scope} {r : Request} {clock : Clock}
    {g : AuthGuard} (hauth : c.disableAPITokenAuth = false)
    (htoken : bearerToken r.authorization ≠ "")
    (hexpired : c.expired (bearerToken r.authorization) clock.checked = true) :
    (c.secure scope r clock g).1 ≠ .served := by
  unfold secure
  rw [if_neg (by simp [hauth])]
  dsimp only
  split
  · simp [Verdict.blocked]
  · rw [if_neg fun h => htoken h.1, if_neg htoken, if_pos hexpired]
    simp

/-- The last expiry of a token of a list is enforced exactly if the token has no equals
sign. -/
theorem expiry_enforced_iff {lists env : Environment} {key t : String} {n : ℤ}
    (htoken : t ∈ splitOr lists key "")
    (hlast : LastRule ((env.getenv "API_TOKEN_EXPIRATIONS").toList.splitOn ',') (IsExpiry t) n) :
    Enforced env t n ↔ '=' ∉ t.toList := by
  have hne := ne_empty_of_mem_splitOr htoken
  constructor
  · intro h ht
    have hread := h.read
    rw [parseInt64Map_of_mem ht] at hread
    cases hread
  · intro ht
    have hread : parseInt64Map env "API_TOKEN_EXPIRATIONS" t = some n :=
      (parseRules_eq_some (by decide) (by decide) (isExpiry_iff hne ht)).mpr hlast
    refine ⟨hread, ?_⟩
    rintro hauth scope r clock g rfl hlate
    have hexpired : (fromEnv env).expired (bearerToken r.authorization) clock.checked = true := by
      have hexp : (fromEnv env).apiTokenExpirations (bearerToken r.authorization) = some n := hread
      unfold expired
      simp [hexp, hlate]
    exact not_served_of_expired hauth hne hexpired

/-- One administrator, whose token expires. -/
def expiringEnv (token expirations : String) : Environment where
  getenv := fun key =>
    if key = "API_ACL_ADMIN_TOKENS" then token
    else if key = "API_TOKEN_EXPIRATIONS" then expirations
    else ""
  hostname := none

/-- The token `abc`, which expires in the fifth second, is refused from then on. -/
theorem expiry_enforced_iff_plain :
    "abc" ∈ splitOr (expiringEnv "abc" "abc=5") "API_ACL_ADMIN_TOKENS" "" ∧
      Enforced (expiringEnv "abc" "abc=5") "abc" 5 := by
  have htoken : "abc" ∈ splitOr (expiringEnv "abc" "abc=5") "API_ACL_ADMIN_TOKENS" "" := by
    decide +kernel
  have hlast : LastRule (((expiringEnv "abc" "abc=5").getenv "API_TOKEN_EXPIRATIONS").toList.splitOn
      ',') (IsExpiry "abc") 5 :=
    ⟨[], "abc=5".toList, [], by decide +kernel, ⟨"abc".toList, ['5'], by decide +kernel⟩, by simp⟩
  exact ⟨htoken, (expiry_enforced_iff htoken hlast).mpr (by decide +kernel)⟩

/-- The token `abc=`, as the encoding in base 64 pads it, has an entry with its expiry. The
entry is cut after `abc` and dropped, and the token still opens the list of dead letters an
hour later. -/
theorem padded_token_never_expires :
    "abc=" ∈ splitOr (expiringEnv "abc=" "abc==5") "API_ACL_ADMIN_TOKENS" "" ∧
      LastRule (((expiringEnv "abc=" "abc==5").getenv "API_TOKEN_EXPIRATIONS").toList.splitOn ',')
        (IsExpiry "abc=") 5 ∧
      parseInt64Map (expiringEnv "abc=" "abc==5") "API_TOKEN_EXPIRATIONS" "abc=" = none ∧
      (fromEnv (expiringEnv "abc=" "abc==5")).runs .deadletters
          ⟨"10.0.0.7:41000", "GET", "Bearer abc=", ⟨"", ""⟩⟩ ⟨hour, hour, hour⟩
          (fromEnv (expiringEnv "abc=" "abc==5")).authGuard = some .deadLetters ∧
      ¬Enforced (expiringEnv "abc=" "abc==5") "abc=" 5 := by
  have hread : parseInt64Map (expiringEnv "abc=" "abc==5") "API_TOKEN_EXPIRATIONS" "abc=" = none :=
    parseInt64Map_of_mem (by decide +kernel)
  refine ⟨by decide +kernel, ?_, hread, by decide +kernel, ?_⟩
  · exact ⟨[], "abc==5".toList, [], by decide +kernel,
      ⟨"abc=".toList, ['5'], by decide +kernel⟩, by simp⟩
  · intro h
    have hsome := h.read
    rw [hread] at hsome
    cases hsome

end ServerSettings

end ControlPlane
