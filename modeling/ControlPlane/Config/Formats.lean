import ControlPlane.Config.Server

/-!
# The formats of rule texts

A rule text is a list of entries between separators. Reading the concatenation of two texts
overrides what the first one says by what the second one says, so an entry that is no rule is
as good as absent, and the last rule for a key is the one that counts. The schema rules are
also rendered here, and what is rendered is read back.
-/

namespace ControlPlane

open Text

/-- The environment after the variable `key` has been given a value. -/
def Environment.setenv (env : Environment) (key value : String) : Environment :=
  { env with getenv := Function.update env.getenv key value }

@[simp] theorem Environment.getenv_setenv (env : Environment) (key value : String) :
    (env.setenv key value).getenv key = value := by
  simp [Environment.setenv]

section Composition

variable {V : Type*}

/-- The rules `m`, overridden key by key by the rules `m'`. -/
def override (m m' : String → Option V) : String → Option V := fun k => (m' k).or (m k)

/-- How the texts of a format compose. `R k entry v` says that the entry is a well-formed rule
that gives `k` the value `v`. -/
structure Composes (sep : Char) (parse : String → String → Option V)
    (R : String → List Char → V → Prop) : Prop where
  append : ∀ a b, parse (a ++ String.singleton sep ++ b) = override (parse a) (parse b)
  blank : ∀ entry, trimSpace entry = [] → ∀ k v, ¬R k entry v
  skip_between : ∀ a entry b, (∀ k v, ¬R k (String.toList entry) v) → sep ∉ entry.toList →
    parse (a ++ String.singleton sep ++ entry ++ String.singleton sep ++ b) =
      parse (a ++ String.singleton sep ++ b)
  skip_first : ∀ entry b, (∀ k v, ¬R k (String.toList entry) v) → sep ∉ entry.toList →
    parse (entry ++ String.singleton sep ++ b) = parse b
  skip_last : ∀ a entry, (∀ k v, ¬R k (String.toList entry) v) → sep ∉ entry.toList →
    parse (a ++ String.singleton sep ++ entry) = parse a
  last : ∀ value k v, parse value k = some v ↔ LastRule (value.toList.splitOn sep) (R k) v

variable {rule : List Char → Option (String × V)} {out : String → Option V} {k : String} {v : V}

/-- What the entries say, overrides what has been read before them. -/
theorem foldl_addRule_eq_override (entries : List (List Char)) :
    entries.foldl (addRule rule) out = override out (entries.foldl (addRule rule) fun _ => none) := by
  induction entries generalizing out with
  | nil => rfl
  | cons entry entries ih =>
    have hentry : addRule rule out entry = override out (addRule rule (fun _ => none) entry) := by
      simp only [addRule]
      split_ifs with hblank
      · rfl
      · cases hrule : rule (trimSpace entry) with
        | none => rfl
        | some kv =>
          funext k
          by_cases hk : k = kv.1
          · subst hk
            simp [override]
          · simp [override, Function.update_of_ne hk]
    have htail : entries.foldl (addRule rule) (addRule rule (fun _ => none) entry) =
        override (addRule rule (fun _ => none) entry)
          (entries.foldl (addRule rule) fun _ => none) := ih
    rw [List.foldl_cons, List.foldl_cons, ih, hentry, htail]
    funext k
    exact Option.or_assoc.symm

theorem override_none_right (m : String → Option V) : override m (fun _ => none) = m := rfl

theorem override_none_left (m : String → Option V) : override (fun _ => none) m = m := by
  funext k
  exact Option.or_none

theorem parseRules_append {sep : Char} (hsep : isSpace sep = false) (a b : String) :
    parseRules sep rule (a ++ String.singleton sep ++ b) =
      override (parseRules sep rule a) (parseRules sep rule b) := by
  have hpieces : (a ++ String.singleton sep ++ b).toList.splitOn sep =
      a.toList.splitOn sep ++ b.toList.splitOn sep := by
    rw [String.toList_append, String.toList_append, String.toList_singleton, List.append_assoc,
      List.singleton_append, splitOn_append_sep]
  rw [parseRules_eq hsep, parseRules_eq hsep, parseRules_eq hsep, hpieces, List.foldl_append,
    foldl_addRule_eq_override]

/-- The shared loop composes, whatever the entries of a format are. -/
theorem parseRules_composes {sep : Char} (hsep : isSpace sep = false)
    {R : String → List Char → V → Prop} (hnil : rule [] = none)
    (hread : ∀ k e v, R k e v ↔ rule (trimSpace e) = some (k, v)) :
    Composes sep (parseRules sep rule) R := by
  have happend : ∀ a b, parseRules sep rule (a ++ String.singleton sep ++ b) =
      override (parseRules sep rule a) (parseRules sep rule b) := parseRules_append hsep
  have hlast : ∀ value k v, parseRules sep rule value k = some v ↔
      LastRule (value.toList.splitOn sep) (R k) v :=
    fun value k v => parseRules_eq_some hsep hnil (hread k)
  have hskip : ∀ entry : String, (∀ k v, ¬R k entry.toList v) → sep ∉ entry.toList →
      parseRules sep rule entry = fun _ => none := by
    intro entry hmalformed hsep'
    funext k
    rw [Option.eq_none_iff_forall_ne_some]
    intro v hv
    obtain ⟨before, e, later, hentries, he, -⟩ := (hlast entry k v).mp hv
    have hmem : e ∈ [entry.toList] := by
      rw [← splitOn_of_notMem hsep', hentries]
      simp
    rw [List.mem_singleton] at hmem
    exact hmalformed k v (hmem ▸ he)
  refine ⟨happend, ?_, ?_, ?_, ?_, hlast⟩
  · intro entry hblank k v hR
    rw [hread, hblank, hnil] at hR
    cases hR
  · intro a entry b hmalformed hsep'
    rw [happend, happend, happend, hskip entry hmalformed hsep', override_none_right]
  · intro entry b hmalformed hsep'
    rw [happend, hskip entry hmalformed hsep', override_none_left]
  · intro a entry hmalformed hsep'
    rw [happend, hskip entry hmalformed hsep', override_none_right]

end Composition

/-- The four rule formats compose, for every environment and every variable the text stands in. -/
theorem rule_texts_compose (env : Environment) (key : String) :
    Composes ',' (fun value => parseIntMap (env.setenv key value) key) IsNumberRule ∧
    Composes ',' (fun value => parseInt64Map (env.setenv key value) key) IsNumberRule ∧
    Composes ',' (fun value => parseSchemaVersionRules (env.setenv key value) key) IsVersionRule ∧
    Composes ';' (fun value => parseRequiredFieldRules (env.setenv key value) key)
      IsRequiredFieldRule := by
  have hcomma : isSpace ',' = false := by decide
  have hsemicolon : isSpace ';' = false := by decide
  simp only [parseIntMap, parseInt64Map, parseSchemaVersionRules, parseRequiredFieldRules,
    Environment.getenv_setenv]
  exact ⟨parseRules_composes hcomma rfl fun _ _ _ => numberRule_trimSpace,
    parseRules_composes hcomma rfl fun _ _ _ => numberRule_trimSpace,
    parseRules_composes hcomma rfl fun _ _ _ => versionRule_trimSpace,
    parseRules_composes hsemicolon rfl fun _ _ _ => requiredFieldRule_trimSpace⟩

example : parseIntMap ⟨fun _ => " a=1,, b=x,=3, a = 2 ,", none⟩ "LIMITS" "a" = some 2 := by decide

section Rendering

variable {V : Type*}

/-- The entries of a finite map, in some order. -/
structure Enumerates (entries : List (String × V)) (m : String → Option V) : Prop where
  nodup : (entries.map Prod.fst).Nodup
  mem : ∀ k v, (k, v) ∈ entries ↔ m k = some v

/-- A trimmed, non-empty name in which none of the separators occurs. -/
def IsName (seps : List Char) (name : String) : Prop :=
  name ≠ "" ∧ trimSpace name.toList = name.toList ∧ ∀ sep ∈ seps, sep ∉ name.toList

/-- The rendered entries between separators. -/
def renderRules (sep : Char) (render : String × V → List Char) (entries : List (String × V)) :
    String := String.ofList ([sep].intercalate (entries.map render))

/-- The entry `type:min-max`. -/
def renderVersionRule (e : String × VersionRange) : List Char :=
  e.1.toList ++ ':' :: ((toString e.2.min).toList ++ '-' :: (toString e.2.max).toList)

/-- The entry `type=field|field`. -/
def renderRequiredFieldRule (e : String × List String) : List Char :=
  e.1.toList ++ '=' :: ['|'].intercalate (e.2.map String.toList)

theorem lastRule_nil_iff {R : List Char → V → Prop} {v : V} : LastRule [] R v ↔ False := by
  simp [LastRule]

theorem lastRule_singleton_iff {entry : List Char} {R : List Char → V → Prop} {v : V} :
    LastRule [entry] R v ↔ R entry v := by
  have h : LastRule ([] ++ [entry]) R v ↔ _ := lastRule_append_singleton
  simpa [lastRule_nil_iff] using h

/-- Among entries that are rules for different keys, each one is the last for its key. -/
theorem lastRule_map_iff {render : String × V → List Char} {R : String → List Char → V → Prop}
    {entries : List (String × V)} (hnodup : (entries.map Prod.fst).Nodup)
    (hrender : ∀ e ∈ entries, ∀ k v, R k (render e) v ↔ e = (k, v)) (k : String) (v : V) :
    LastRule (entries.map render) (R k) v ↔ (k, v) ∈ entries := by
  constructor
  · rintro ⟨before, entry, later, hentries, hentry, -⟩
    have hmem : entry ∈ entries.map render := by
      rw [hentries]
      simp
    obtain ⟨e, he, rfl⟩ := List.mem_map.mp hmem
    rw [hrender e he] at hentry
    exact hentry ▸ he
  · intro hmem
    obtain ⟨before, later, rfl⟩ := List.append_of_mem hmem
    refine ⟨before.map render, render (k, v), later.map render, by simp, ?_, ?_⟩
    · exact (hrender (k, v) hmem k v).mpr rfl
    · intro entry hentry v' hR
      obtain ⟨e, he, rfl⟩ := List.mem_map.mp hentry
      have heq : e = (k, v') := (hrender e (by simp [he]) k v').mp hR
      -- The key would stand in the list twice.
      rw [List.map_append, List.map_cons, List.nodup_append] at hnodup
      have hkey : k ∈ later.map Prod.fst := List.mem_map.mpr ⟨e, he, by rw [heq]⟩
      exact (List.nodup_cons.mp hnodup.2.1).1 hkey

/-- In a format that composes, what is rendered is read back. -/
theorem Composes.parse_renderRules {sep : Char} {parse : String → String → Option V}
    {R : String → List Char → V → Prop} (h : Composes sep parse R)
    {render : String × V → List Char} {entries : List (String × V)} {m : String → Option V}
    (hm : Enumerates entries m) (hsep : ∀ e ∈ entries, sep ∉ render e)
    (hrender : ∀ e ∈ entries, ∀ k v, R k (render e) v ↔ e = (k, v)) :
    parse (renderRules sep render entries) = m := by
  have hpieces : ∀ k v, LastRule ((renderRules sep render entries).toList.splitOn sep) (R k) v ↔
      LastRule (entries.map render) (R k) v := by
    intro k v
    unfold renderRules
    rw [String.toList_ofList]
    by_cases hnil : entries = []
    · -- The empty text is one blank entry.
      subst hnil
      rw [List.map_nil, lastRule_nil_iff, List.intercalate_nil, splitOn_of_notMem List.not_mem_nil]
      rw [lastRule_singleton_iff]
      exact iff_of_false (h.blank [] rfl k v) id
    · rw [List.splitOn_intercalate]
      · intro entry hentry
        obtain ⟨e, he, rfl⟩ := List.mem_map.mp hentry
        exact hsep e he
      · simpa using hnil
  funext k
  ext v
  rw [h.last, hpieces, lastRule_map_iff hm.nodup hrender, hm.mem]

/-- A rendered version rule is read as the rule it renders. -/
theorem isVersionRule_render {e : String × VersionRange} (hname : IsName [',', ':'] e.1)
    (hmin : 1 ≤ e.2.min) (hmax : e.2.min ≤ e.2.max) (hfits : e.2.max < 2 ^ 63) :
    IsVersionRule e.1 (renderVersionRule e) e.2 := by
  obtain ⟨-, htrim, hseps⟩ := hname
  have hread : ∀ n : ℤ, 0 ≤ n → n < 2 ^ 63 → parseInt (trimSpace (toString n).toList) = some n := by
    intro n hn hlt
    have hpad : trimSpace (toString n).toList = (toString n).toList :=
      trim_of_neg fun c hc => isSpace_of_isDigit (isDigit_of_mem_toString hn hc)
    rw [hpad, parseInt_toString hn hlt]
  have hdash : '-' ∉ (toString e.2.min).toList := by
    intro hmem
    exact absurd (isDigit_of_mem_toString (by omega) hmem) (by decide)
  refine ⟨e.1.toList, _, _, rfl, hseps ':' (by simp), hdash, ?_, ?_, ?_, hmin, hmax⟩
  · rw [htrim, String.ofList_toList]
  · exact hread e.2.min (by omega) (by omega)
  · exact hread e.2.max (by omega) hfits

theorem comma_notMem_renderVersionRule {e : String × VersionRange} (hname : IsName [',', ':'] e.1)
    (hmin : 0 ≤ e.2.min) (hmax : 0 ≤ e.2.max) : ',' ∉ renderVersionRule e := by
  have hdigits : ∀ n : ℤ, 0 ≤ n → ',' ∉ (toString n).toList := by
    intro n hn hmem
    exact absurd (isDigit_of_mem_toString hn hmem) (by decide)
  have hcomma : ',' ∉ e.1.toList := hname.2.2 ',' (by simp)
  simp only [renderVersionRule, List.mem_append, List.mem_cons, not_or]
  exact ⟨hcomma, by decide, hdigits e.2.min hmin, by decide, hdigits e.2.max hmax⟩

/-- The fields between bars are the non-blank pieces. -/
theorem nonBlank_intercalate {sep : Char} {seps : List Char} {names : List String}
    (hsep : sep ∈ seps) (hnames : ∀ f ∈ names, IsName seps f) (hne : names ≠ []) :
    nonBlank sep ([sep].intercalate (names.map String.toList)) = names := by
  have hpieces : ([sep].intercalate (names.map String.toList)).splitOn sep =
      names.map String.toList := by
    rw [List.splitOn_intercalate]
    · intro piece hpiece
      obtain ⟨f, hf, rfl⟩ := List.mem_map.mp hpiece
      exact (hnames f hf).2.2 sep hsep
    · simpa using hne
  have htrim : (names.map String.toList).map trimSpace = names.map String.toList := by
    rw [List.map_map]
    exact List.map_congr_left fun f hf => (hnames f hf).2.1
  have hkeep : (names.map String.toList).filter (· ≠ []) = names.map String.toList := by
    rw [List.filter_eq_self]
    intro piece hpiece
    obtain ⟨f, hf, rfl⟩ := List.mem_map.mp hpiece
    simpa using (hnames f hf).1
  unfold nonBlank
  rw [hpieces, htrim, hkeep, List.map_map]
  simp [Function.comp_def]

/-- A rendered required-field rule is read as the rule it renders. -/
theorem isRequiredFieldRule_render {e : String × List String} (hname : IsName [';', '='] e.1)
    (hne : e.2 ≠ []) (hfields : ∀ f ∈ e.2, IsName [';', '|'] f) :
    IsRequiredFieldRule e.1 (renderRequiredFieldRule e) e.2 := by
  obtain ⟨hempty, htrim, hseps⟩ := hname
  refine ⟨e.1.toList, _, rfl, hseps '=' (by simp), hempty, ?_, ?_, hne⟩
  · rw [htrim, String.ofList_toList]
  · exact (nonBlank_intercalate (by simp) hfields hne).symm

theorem semicolon_notMem_renderRequiredFieldRule {e : String × List String}
    (hname : IsName [';', '='] e.1) (hfields : ∀ f ∈ e.2, IsName [';', '|'] f) :
    ';' ∉ renderRequiredFieldRule e := by
  have htype : ';' ∉ e.1.toList := hname.2.2 ';' (by simp)
  have hjoined : ';' ∉ ['|'].intercalate (e.2.map String.toList) := by
    refine notMem_intercalate (by decide) fun piece hpiece => ?_
    obtain ⟨f, hf, rfl⟩ := List.mem_map.mp hpiece
    exact (hfields f hf).2.2 ';' (by simp)
  simp [renderRequiredFieldRule, htype, hjoined]

end Rendering

/-- The rules for the versions of a type that can be written down: the type is a name, and the
bounds are positive, in order, and of 64 bits. -/
def RendersVersions (m : String → Option VersionRange) : Prop :=
  ∀ k range, m k = some range →
    IsName [',', ':'] k ∧ 1 ≤ range.min ∧ range.min ≤ range.max ∧ range.max < 2 ^ 63

/-- The required fields of a type that can be written down: type and fields are names, and there
is at least one field. -/
def RendersFields (m : String → Option (List String)) : Prop :=
  ∀ k fields, m k = some fields →
    IsName [';', '='] k ∧ fields ≠ [] ∧ ∀ f ∈ fields, IsName [';', '|'] f

theorem parse_renderVersionRules (env : Environment) (key : String)
    {entries : List (String × VersionRange)} {m : String → Option VersionRange}
    (hentries : Enumerates entries m) (hm : RendersVersions m) :
    parseSchemaVersionRules (env.setenv key (renderRules ',' renderVersionRule entries)) key = m := by
  have hcomposes : Composes ',' (parseRules ',' versionRule) IsVersionRule :=
    parseRules_composes (by decide) rfl fun _ _ _ => versionRule_trimSpace
  unfold parseSchemaVersionRules
  rw [Environment.getenv_setenv]
  refine hcomposes.parse_renderRules hentries ?_ ?_
  · intro e he
    obtain ⟨hname, hmin, hmax, -⟩ := hm e.1 e.2 ((hentries.mem e.1 e.2).mp he)
    exact comma_notMem_renderVersionRule hname (by omega) (by omega)
  · intro e he k range
    obtain ⟨hname, hmin, hmax, hfits⟩ := hm e.1 e.2 ((hentries.mem e.1 e.2).mp he)
    have hread := versionRule_trimSpace.mp (isVersionRule_render hname hmin hmax hfits)
    rw [versionRule_trimSpace, hread, Option.some.injEq]

theorem parse_renderRequiredFieldRules (env : Environment) (key : String)
    {entries : List (String × List String)} {m : String → Option (List String)}
    (hentries : Enumerates entries m) (hm : RendersFields m) :
    parseRequiredFieldRules (env.setenv key (renderRules ';' renderRequiredFieldRule entries)) key =
      m := by
  have hcomposes : Composes ';' (parseRules ';' requiredFieldRule) IsRequiredFieldRule :=
    parseRules_composes (by decide) rfl fun _ _ _ => requiredFieldRule_trimSpace
  unfold parseRequiredFieldRules
  rw [Environment.getenv_setenv]
  refine hcomposes.parse_renderRules hentries ?_ ?_
  · intro e he
    obtain ⟨hname, -, hfields⟩ := hm e.1 e.2 ((hentries.mem e.1 e.2).mp he)
    exact semicolon_notMem_renderRequiredFieldRule hname hfields
  · intro e he k fields
    obtain ⟨hname, hne, hfields⟩ := hm e.1 e.2 ((hentries.mem e.1 e.2).mp he)
    have hread := requiredFieldRule_trimSpace.mp (isRequiredFieldRule_render hname hne hfields)
    rw [requiredFieldRule_trimSpace, hread, Option.some.injEq]

/-- Whatever the text, a range that is read is one of positive bounds in order. -/
theorem parseSchemaVersionRules_bounds {env : Environment} {key k : String} {range : VersionRange}
    (h : parseSchemaVersionRules env key k = some range) :
    1 ≤ range.min ∧ range.min ≤ range.max := by
  obtain ⟨-, entry, -, -, hrule, -⟩ :=
    (parseRules_eq_some (by decide) rfl fun _ _ => versionRule_trimSpace).mp h
  obtain ⟨a, b, c, -, -, -, -, -, -, hbounds⟩ := hrule
  exact hbounds

/-- Whatever the text, required fields that are read are trimmed and not blank, and there is one. -/
theorem parseRequiredFieldRules_fields {env : Environment} {key k : String} {fields : List String}
    (h : parseRequiredFieldRules env key k = some fields) :
    fields ≠ [] ∧ ∀ f ∈ fields, f ≠ "" ∧ trimSpace f.toList = f.toList := by
  obtain ⟨-, entry, -, -, hrule, -⟩ :=
    (parseRules_eq_some (by decide) rfl fun _ _ => requiredFieldRule_trimSpace).mp h
  obtain ⟨a, b, -, -, -, -, rfl, hne⟩ := hrule
  refine ⟨hne, fun f hf => ?_⟩
  obtain ⟨piece, -, hblank, rfl⟩ := mem_nonBlank.mp hf
  refine ⟨?_, ?_⟩
  · simpa using hblank
  · rw [String.toList_ofList]
    exact trim_trim piece

/-- The schema rules of a finite map, rendered in any order, are read back as that map, and
whatever is read from a text is well-formed. -/
theorem schema_rules_round_trip (env : Environment) (key : String) :
    (∀ entries m, Enumerates entries m → RendersVersions m →
      parseSchemaVersionRules (env.setenv key (renderRules ',' renderVersionRule entries)) key = m) ∧
    (∀ entries m, Enumerates entries m → RendersFields m →
      parseRequiredFieldRules (env.setenv key (renderRules ';' renderRequiredFieldRule entries))
        key = m) ∧
    (∀ value k range, parseSchemaVersionRules (env.setenv key value) key k = some range →
      1 ≤ range.min ∧ range.min ≤ range.max) ∧
    (∀ value k fields, parseRequiredFieldRules (env.setenv key value) key k = some fields →
      fields ≠ [] ∧ ∀ f ∈ fields, f ≠ "" ∧ trimSpace f.toList = f.toList) :=
  ⟨fun _ _ => parse_renderVersionRules env key, fun _ _ => parse_renderRequiredFieldRules env key,
    fun _ _ _ => parseSchemaVersionRules_bounds, fun _ _ _ => parseRequiredFieldRules_fields⟩

theorem Enumerates.nil {V : Type*} : Enumerates [] fun _ => (none : Option V) :=
  ⟨List.nodup_nil, by simp⟩

theorem Enumerates.cons {V : Type*} {entries : List (String × V)} {m : String → Option V}
    {k : String} (v : V) (h : Enumerates entries m) (hk : k ∉ entries.map Prod.fst) :
    Enumerates ((k, v) :: entries) (Function.update m k (some v)) := by
  refine ⟨List.nodup_cons.mpr ⟨hk, h.nodup⟩, fun k' v' => ?_⟩
  rw [List.mem_cons, h.mem]
  by_cases heq : k' = k
  · subst heq
    have hnone : m k' ≠ some v' := by
      intro hm
      exact hk (List.mem_map.mpr ⟨_, (h.mem k' v').mpr hm, rfl⟩)
    simp [hnone, eq_comm]
  · simp [heq]

/-- A type with a dash in its name, and fields with an equals sign in theirs. -/
theorem schema_rules_round_trip_orders :
    parseSchemaVersionRules (Environment.setenv ⟨fun _ => "", none⟩ "RULES"
      (renderRules ',' renderVersionRule [("order-created", ⟨1, 3⟩), ("order", ⟨2, 20⟩)])) "RULES" =
        Function.update (Function.update (fun _ => none) "order" (some ⟨2, 20⟩)) "order-created"
          (some ⟨1, 3⟩) ∧
    parseRequiredFieldRules (Environment.setenv ⟨fun _ => "", none⟩ "RULES"
      (renderRules ';' renderRequiredFieldRule [("order", ["id", "a=b"])])) "RULES" =
        Function.update (fun _ => none) "order" (some ["id", "a=b"]) := by
  obtain ⟨hversions, hfields, -, -⟩ := schema_rules_round_trip ⟨fun _ => "", none⟩ "RULES"
  have hranges := (Enumerates.nil.cons (k := "order") (⟨2, 20⟩ : VersionRange) (by decide)).cons
    (k := "order-created") ⟨1, 3⟩ (by decide)
  have hrequired := Enumerates.nil.cons (k := "order") ["id", "a=b"] (by decide)
  refine ⟨hversions _ _ hranges fun k range hk => ?_, hfields _ _ hrequired fun k fields hk => ?_⟩
  · have hmem := (hranges.mem k range).mpr hk
    rw [List.mem_cons, List.mem_singleton] at hmem
    rcases hmem with h | h
    all_goals
      cases h
      exact ⟨⟨by decide, by decide, by simp⟩, by decide, by decide, by decide⟩
  · have hmem := (hrequired.mem k fields).mpr hk
    rw [List.mem_singleton] at hmem
    cases hmem
    have hid : IsName [';', '|'] "id" := ⟨by decide, by decide, by simp⟩
    have hab : IsName [';', '|'] "a=b" := ⟨by decide, by decide, by simp⟩
    refine ⟨⟨by decide, by decide, by simp⟩, by decide, ?_⟩
    exact List.forall_mem_cons.mpr ⟨hid, List.forall_mem_singleton.mpr hab⟩

end ControlPlane
