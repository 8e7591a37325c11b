import ControlPlane.Text

/-!
# Reading the environment

The configuration is read from environment variables. Lists are separated by commas; rules
are separated entries that start with an event type. A malformed entry is skipped, and among
the well-formed rules for one event type the last one counts. What a well-formed rule is, is
stated here without reference to the order in which the code trims and cuts its text.
-/

namespace ControlPlane

open Text

/-- The environment of the process. An unset variable reads as the empty text. -/
structure Environment where
  getenv : String → String
  hostname : Option String

/-- `strings.TrimSpace`. -/
def trimSpace (l : List Char) : List Char := trim isSpace l

/-- The non-blank pieces of a text, trimmed. -/
def nonBlank (sep : Char) (l : List Char) : List String :=
  (((l.splitOn sep).map trimSpace).filter (· ≠ [])).map String.ofList

theorem mem_nonBlank {sep : Char} {l : List Char} {s : String} : s ∈ nonBlank sep l ↔
    ∃ piece ∈ l.splitOn sep, trimSpace piece ≠ [] ∧ s = String.ofList (trimSpace piece) := by
  unfold nonBlank
  constructor
  · intro h
    obtain ⟨t, ht, rfl⟩ := List.mem_map.mp h
    obtain ⟨hmem, hne⟩ := List.mem_filter.mp ht
    obtain ⟨piece, hpiece, rfl⟩ := List.mem_map.mp hmem
    exact ⟨piece, hpiece, by simpa using hne, rfl⟩
  · rintro ⟨piece, hpiece, hne, rfl⟩
    refine List.mem_map.mpr ⟨trimSpace piece, List.mem_filter.mpr ⟨?_, by simpa using hne⟩, rfl⟩
    exact List.mem_map.mpr ⟨piece, hpiece, rfl⟩

section Readers

variable (env : Environment) (key : String)

def envOr (fallback : String) : String :=
  if env.getenv key = "" then fallback else env.getenv key

def splitOr (fallback : String) : List String := nonBlank ',' (envOr env key fallback).toList

def hostOr (fallback : String) : String :=
  match env.hostname with
  | some h => if h = "" then fallback else h
  | none => fallback

/-- The comparison is with words in which only letters of ASCII occur, so lower case matters
for these letters only. -/
def boolOr (fallback : Bool) : Bool :=
  let v := trimSpace ((env.getenv key).toList.map Char.toLower)
  if v = [] then fallback
  else v = "1".toList ∨ v = "true".toList ∨ v = "yes".toList ∨ v = "on".toList

/-- A trimmed decimal number of 64 bits. -/
def numberOr (fallback : ℤ) : ℤ :=
  let v := trimSpace (env.getenv key).toList
  if v = [] then fallback else (parseInt v).getD fallback

def intOr (fallback : ℤ) : ℤ := numberOr env key fallback

def int64Or (fallback : ℤ) : ℤ := numberOr env key fallback

end Readers

section Rules

variable {V : Type*}

/-- Read one entry into the rules read so far. -/
def addRule (rule : List Char → Option (String × V)) (out : String → Option V)
    (entry : List Char) : String → Option V :=
  let entry := trimSpace entry
  if entry = [] then out
  else
    match rule entry with
    | some (k, v) => Function.update out k (some v)
    | none => out

/-- The loop that `parseSchemaVersionRules` and `parseRequiredFieldRules` share. -/
def parseRules (sep : Char) (rule : List Char → Option (String × V)) (value : String) :
    String → Option V :=
  let raw := trimSpace value.toList
  if raw = [] then fun _ => none else (raw.splitOn sep).foldl (addRule rule) fun _ => none

/-- The last entry that is a rule for `v`. -/
def LastRule (entries : List (List Char)) (R : List Char → V → Prop) (v : V) : Prop :=
  ∃ before entry later, entries = before ++ entry :: later ∧ R entry v ∧
    ∀ e ∈ later, ∀ v', ¬R e v'

variable {rule : List Char → Option (String × V)} {out : String → Option V} {k : String}

theorem addRule_trimSpace (entry : List Char) :
    addRule rule out (trimSpace entry) = addRule rule out entry := by
  have htrim : trimSpace (trimSpace entry) = trimSpace entry := trim_trim entry
  unfold addRule
  rw [htrim]

theorem foldl_addRule_map_trimSpace (entries : List (List Char)) :
    (entries.map trimSpace).foldl (addRule rule) out = entries.foldl (addRule rule) out := by
  rw [List.foldl_map]
  congr 1
  funext out entry
  exact addRule_trimSpace entry

/-- The outer trim of a value does not matter for its rules. -/
theorem parseRules_eq {sep : Char} (hsep : isSpace sep = false) (value : String) :
    parseRules sep rule value =
      (value.toList.splitOn sep).foldl (addRule rule) fun _ => none := by
  have hpieces : ((trimSpace value.toList).splitOn sep).map trimSpace =
      (value.toList.splitOn sep).map trimSpace := map_trim_splitOn_trim value.toList hsep
  rw [← foldl_addRule_map_trimSpace, ← hpieces]
  simp only [parseRules]
  split_ifs with hraw
  · rw [hraw]
    rfl
  · rw [foldl_addRule_map_trimSpace]

/-- The value of a key after one more entry: what the entry says, or what was read before if the
entry is no rule for the key. -/
theorem addRule_eq_some {R : List Char → V → Prop} {v : V} (hnil : rule [] = none)
    (hread : ∀ e v, R e v ↔ rule (trimSpace e) = some (k, v)) (entry : List Char) :
    addRule rule out entry k = some v ↔ R entry v ∨ (∀ v', ¬R entry v') ∧ out k = some v := by
  simp only [hread, addRule]
  split_ifs with hblank
  · simp [hblank, hnil]
  · cases hrule : rule (trimSpace entry) with
    | none => simp
    | some kv =>
      obtain ⟨k', v'⟩ := kv
      by_cases hk : k = k'
      · subst hk
        simp
      · simp [Function.update_of_ne hk, Ne.symm hk]

theorem lastRule_append_singleton {entries : List (List Char)} {entry : List Char}
    {R : List Char → V → Prop} {v : V} : LastRule (entries ++ [entry]) R v ↔
      R entry v ∨ (∀ v', ¬R entry v') ∧ LastRule entries R v := by
  constructor
  · rintro ⟨before, e, later, hentries, he, hlater⟩
    rcases later.eq_nil_or_concat' with rfl | ⟨later, e', rfl⟩
    · obtain ⟨-, rfl⟩ := List.append_singleton_inj.mp hentries
      exact .inl he
    · rw [← List.cons_append, ← List.append_assoc] at hentries
      obtain ⟨rfl, rfl⟩ := List.append_singleton_inj.mp hentries
      refine .inr ⟨hlater entry (by simp), before, e, later, rfl, he, ?_⟩
      exact fun e' he' => hlater e' (List.mem_append_left _ he')
  · rintro (hentry | ⟨hentry, before, e, later, rfl, he, hlater⟩)
    · exact ⟨entries, entry, [], rfl, hentry, by simp⟩
    · refine ⟨before, e, later ++ [entry], by simp, he, ?_⟩
      intro e' he'
      rcases List.mem_append.mp he' with hmem | hmem
      · exact hlater e' hmem
      · rw [List.mem_singleton] at hmem
        exact hmem ▸ hentry

/-- The last rule for a type is the one that is read, if the rules are those entries that
`rule` reads. -/
theorem parseRules_eq_some {sep : Char} (hsep : isSpace sep = false) {value : String}
    {R : List Char → V → Prop} {v : V} (hnil : rule [] = none)
    (hread : ∀ e v, R e v ↔ rule (trimSpace e) = some (k, v)) :
    parseRules sep rule value k = some v ↔ LastRule (value.toList.splitOn sep) R v := by
  rw [parseRules_eq hsep]
  generalize value.toList.splitOn sep = entries
  -- The loop reads the entries from the left, so the last one decides.
  induction entries using List.reverseRecOn with
  | nil => simp [LastRule]
  | append_singleton entries entry ih =>
    rw [List.foldl_append, List.foldl_cons, List.foldl_nil, addRule_eq_some hnil hread, ih,
      lastRule_append_singleton]

end Rules

/-- The schema versions that a rule allows. -/
structure VersionRange where
  min : ℤ
  max : ℤ
  deriving DecidableEq

/-- The bounds `min-max` of a version rule. -/
def versionRange (rng : List Char) : Option VersionRange :=
  (cut '-' rng).bind fun bounds =>
    match parseInt (trimSpace bounds.1), parseInt (trimSpace bounds.2) with
    | some minV, some maxV => if minV ≤ 0 ∨ maxV < minV then none else some ⟨minV, maxV⟩
    | _, _ => none

/-- An entry `type:min-max` of `EVENT_SCHEMA_VERSION_RULES`. -/
def versionRule (entry : List Char) : Option (String × VersionRange) :=
  (cut ':' entry).bind fun parts =>
    (versionRange (trimSpace parts.2)).map fun range => (String.ofList (trimSpace parts.1), range)

def parseSchemaVersionRules (env : Environment) (key : String) : String → Option VersionRange :=
  parseRules ',' versionRule (env.getenv key)

/-- An entry `type=field|field` of `EVENT_SCHEMA_REQUIRED_FIELDS`. -/
def requiredFieldRule (entry : List Char) : Option (String × List String) :=
  (cut '=' entry).bind fun parts =>
    let evt := trimSpace parts.1
    if evt = [] then none
    else
      let fields := nonBlank '|' parts.2
      if fields = [] then none else some (String.ofList evt, fields)

def parseRequiredFieldRules (env : Environment) (key : String) : String → Option (List String) :=
  parseRules ';' requiredFieldRule (env.getenv key)

/-- The entry is a well-formed version rule for the event type: the type, a colon, and two
numbers with a dash between them, the first at least 1 and the second not less than the first. -/
def IsVersionRule (eventType : String) (entry : List Char) (range : VersionRange) : Prop :=
  ∃ a b c, entry = a ++ ':' :: (b ++ '-' :: c) ∧ ':' ∉ a ∧ '-' ∉ b ∧
    eventType = String.ofList (trimSpace a) ∧ parseInt (trimSpace b) = some range.min ∧
    parseInt (trimSpace c) = some range.max ∧ 1 ≤ range.min ∧ range.min ≤ range.max

/-- The entry is a rule for the event type that requires the fields: the type, an equals sign,
and field names with bars between them, of which at least one is not blank. -/
def IsRequiredFieldRule (eventType : String) (entry : List Char) (fields : List String) : Prop :=
  ∃ a b, entry = a ++ '=' :: b ∧ '=' ∉ a ∧ eventType ≠ "" ∧
    eventType = String.ofList (trimSpace a) ∧ fields = nonBlank '|' b ∧ fields ≠ []

/-- What `cut` finds in a trimmed text, up to the padding of the parts. -/
theorem cut_trimSpace {sep : Char} (hsep : isSpace sep = false) {entry : List Char}
    {parts : List Char × List Char} : cut sep (trimSpace entry) = some parts ↔
      ∃ a b, entry = a ++ sep :: b ∧ sep ∉ a ∧ parts = (a.dropWhile isSpace, b.rdropWhile isSpace)
    := by
  unfold trimSpace
  rw [cut_trim entry hsep, Option.map_eq_some_iff]
  constructor
  · rintro ⟨⟨a, b⟩, hcut, rfl⟩
    obtain ⟨rfl, ha⟩ := cut_eq_some.mp hcut
    exact ⟨a, b, rfl, ha, rfl⟩
  · rintro ⟨a, b, rfl, ha, rfl⟩
    exact ⟨(a, b), cut_append_cons b ha, rfl⟩

@[simp] theorem trimSpace_dropWhile (l : List Char) :
    trimSpace (l.dropWhile isSpace) = trimSpace l := trim_dropWhile l

@[simp] theorem trimSpace_rdropWhile (l : List Char) :
    trimSpace (l.rdropWhile isSpace) = trimSpace l := trim_rdropWhile l

theorem versionRange_trimSpace {rng : List Char} {range : VersionRange} :
    versionRange (trimSpace rng) = some range ↔ ∃ b c, rng = b ++ '-' :: c ∧ '-' ∉ b ∧
      parseInt (trimSpace b) = some range.min ∧ parseInt (trimSpace c) = some range.max ∧
      1 ≤ range.min ∧ range.min ≤ range.max := by
  constructor
  · intro h
    obtain ⟨parts, hcut, h⟩ := Option.bind_eq_some_iff.mp h
    obtain ⟨b, c, rfl, hb, rfl⟩ := (cut_trimSpace (by decide)).mp hcut
    simp only [trimSpace_dropWhile, trimSpace_rdropWhile] at h
    split at h
    · rename_i minV maxV hmin hmax
      split_ifs at h with hbounds
      cases h
      exact ⟨b, c, rfl, hb, hmin, hmax, by dsimp only; omega, by dsimp only; omega⟩
    · cases h
  · rintro ⟨b, c, rfl, hb, hmin, hmax, hpos, hle⟩
    refine Option.bind_eq_some_iff.mpr ⟨_, (cut_trimSpace (by decide)).mpr ⟨b, c, rfl, hb, rfl⟩, ?_⟩
    have hbounds : ¬(range.min ≤ 0 ∨ range.max < range.min) := by omega
    simp [hmin, hmax, hbounds]

/-- The version rules that are read are the well-formed ones. -/
theorem versionRule_trimSpace {eventType : String} {entry : List Char} {range : VersionRange} :
    IsVersionRule eventType entry range ↔
      versionRule (trimSpace entry) = some (eventType, range) := by
  constructor
  · rintro ⟨a, b, c, rfl, ha, hb, rfl, hbounds⟩
    have hrange := versionRange_trimSpace.mpr ⟨b, c, rfl, hb, hbounds⟩
    refine Option.bind_eq_some_iff.mpr ⟨_, (cut_trimSpace (by decide)).mpr ⟨a, _, rfl, ha, rfl⟩, ?_⟩
    simp [hrange]
  · intro h
    obtain ⟨parts, hcut, h⟩ := Option.bind_eq_some_iff.mp h
    obtain ⟨a, rng, rfl, ha, rfl⟩ := (cut_trimSpace (by decide)).mp hcut
    simp only [trimSpace_dropWhile, trimSpace_rdropWhile] at h
    obtain ⟨range', hrange, heq⟩ := Option.map_eq_some_iff.mp h
    cases heq
    obtain ⟨b, c, rfl, hb, hbounds⟩ := versionRange_trimSpace.mp hrange
    exact ⟨a, b, c, rfl, ha, hb, rfl, hbounds⟩

/-- Padding after the last piece does not matter for the non-blank pieces. -/
theorem nonBlank_rdropWhile {sep : Char} (hsep : isSpace sep = false) (l : List Char) :
    nonBlank sep (l.rdropWhile isSpace) = nonBlank sep l := by
  have hpad : ∀ x ∈ l.rtakeWhile isSpace, isSpace x = true := fun x hx => List.mem_rtakeWhile_imp hx
  have hpieces := map_trim_splitOn_append_right (l.rdropWhile isSpace) hsep hpad
  rw [List.rdropWhile_append_rtakeWhile] at hpieces
  unfold nonBlank trimSpace
  rw [hpieces]

/-- The required-field rules that are read are the ones with a type and a field. -/
theorem requiredFieldRule_trimSpace {eventType : String} {entry : List Char}
    {fields : List String} : IsRequiredFieldRule eventType entry fields ↔
      requiredFieldRule (trimSpace entry) = some (eventType, fields) := by
  have hbar : isSpace '|' = false := by decide
  constructor
  · rintro ⟨a, b, rfl, ha, hne, rfl, rfl, hfields⟩
    refine Option.bind_eq_some_iff.mpr ⟨_, (cut_trimSpace (by decide)).mpr ⟨a, b, rfl, ha, rfl⟩, ?_⟩
    have htype : trimSpace a ≠ [] := fun hnil => hne (by rw [hnil, String.ofList_nil])
    simp only [trimSpace_dropWhile, nonBlank_rdropWhile hbar]
    rw [if_neg htype, if_neg hfields]
  · intro h
    obtain ⟨parts, hcut, h⟩ := Option.bind_eq_some_iff.mp h
    obtain ⟨a, b, rfl, ha, rfl⟩ := (cut_trimSpace (by decide)).mp hcut
    simp only [trimSpace_dropWhile, nonBlank_rdropWhile hbar] at h
    split_ifs at h with htype hfields
    cases h
    refine ⟨a, b, rfl, ha, ?_, rfl, rfl, hfields⟩
    intro hempty
    exact htype (by simpa using congrArg String.toList hempty)

end ControlPlane
