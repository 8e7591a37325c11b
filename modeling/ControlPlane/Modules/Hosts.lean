import ControlPlane.Config.Formats

/-!
# The hosts of the database

`CASSANDRA_HOSTS` is a list of hosts, each with or without a port, and `normalizeHosts` makes of it
a list of hosts and one port for all of them. A host is dialled as it is written; its brackets are
taken off only if a port follows them, so that a bracketed address without a port keeps them. A long
address without brackets is never split. Of the ports only the last one counts.
-/

namespace ControlPlane

open Text

/-- `net.SplitHostPort`. The port stands after the last colon, and a host with a colon in it stands
in brackets. -/
def splitHostPort (l : List Char) : Option (List Char × List Char) :=
  match cut ':' l.reverse with
  | none => none
  | some (port, before) =>
      match l with
      | '[' :: rest =>
          match cut ']' rest with
          | none => none
          | some (host, after) =>
              if after = ':' :: port.reverse ∧ '[' ∉ rest ∧ ']' ∉ after then
                some (host, port.reverse)
              else none
      | _ => if ':' ∈ before ∨ '[' ∈ l ∨ ']' ∈ l then none else some (before.reverse, port.reverse)

/-- The body of the loop of `normalizeHosts`. -/
def normalizeHost (acc : List String × ℤ) (h : String) : List String × ℤ :=
  match trimSpace h.toList with
  | [] => acc
  | c :: cs =>
      match splitHostPort (c :: cs) with
      | some (host, p) => (acc.1 ++ [String.ofList host], (parseInt p).getD acc.2)
      | none => (acc.1 ++ [String.ofList (c :: cs)], acc.2)

/-- `normalizeHosts`, with its default host and port. -/
def normalizeHosts (hosts : List String) : List String × ℤ :=
  let acc := hosts.foldl normalizeHost ([], 9042)
  (if acc.1 = [] then ["localhost"] else acc.1, acc.2)

/-- `net.JoinHostPort`. -/
def joinHostPort (host port : List Char) : List Char :=
  if ':' ∈ host then '[' :: host ++ ']' :: ':' :: port else host ++ ':' :: port

/-- How an operator writes a host: alone, in brackets, or with a port, where a host with a colon in
it is put in brackets. -/
inductive HostPort
  | bare (host : String)
  | bracketed (host : String)
  | joined (host : String) (port : ℤ)

namespace HostPort

/-- The text of the host in the list. -/
def render : HostPort → String
  | bare host => host
  | bracketed host => String.ofList ('[' :: host.toList ++ [']'])
  | joined host port => String.ofList (joinHostPort host.toList (toString port).toList)

/-- The host that is dialled. -/
def dialled : HostPort → String
  | bare host => host
  | bracketed host => String.ofList ('[' :: host.toList ++ [']'])
  | joined host _ => host

/-- The port that is written. -/
def port : HostPort → Option ℤ
  | joined _ port => some port
  | _ => none

/-- The text has no blanks, commas and brackets. -/
def Plain (host : String) : Prop := ∀ c ∈ host.toList, isSpace c = false ∧ c ∉ [',', '[', ']']

/-- The host is plain. A host alone is not empty, and it has no colon or several of them. A port is
a natural number that fits into an `int`. -/
def Valid : HostPort → Prop
  | bare host => Plain host ∧ host ≠ "" ∧ host.toList.count ':' ≠ 1
  | bracketed host => Plain host
  | joined host port => Plain host ∧ 0 ≤ port ∧ port < 2 ^ 63

end HostPort

section Split

variable {host port : List Char}

/-- What is joined is split again. -/
theorem splitHostPort_joinHostPort (hhost : ∀ c ∈ host, c ∉ ['[', ']'])
    (hport : ∀ c ∈ port, c ∉ [':', '[', ']']) :
    splitHostPort (joinHostPort host port) = some (host, port) := by
  have hcolon : ':' ∉ port.reverse := by
    intro h
    exact hport ':' (List.mem_reverse.mp h) (by decide)
  have hopen : '[' ∉ host := fun h => hhost '[' h (by decide)
  have hclose : ']' ∉ host := fun h => hhost ']' h (by decide)
  have hopen' : '[' ∉ port := fun h => hport '[' h (by decide)
  have hclose' : ']' ∉ port := fun h => hport ']' h (by decide)
  unfold joinHostPort
  split_ifs with hmem
  · have hlast : cut ':' ('[' :: host ++ ']' :: ':' :: port).reverse =
        some (port.reverse, ']' :: ('[' :: host).reverse) := by
      rw [List.reverse_append, List.reverse_cons, List.reverse_cons, List.append_assoc,
        List.append_assoc]
      exact cut_append_cons _ hcolon
    have hfirst : cut ']' (host ++ ']' :: ':' :: port) = some (host, ':' :: port) :=
      cut_append_cons _ hclose
    unfold splitHostPort
    rw [hlast]
    simp [hfirst, hopen, hopen', hclose']
  · have hlast : cut ':' (host ++ ':' :: port).reverse = some (port.reverse, host.reverse) := by
      rw [List.reverse_append, List.reverse_cons, List.append_assoc]
      exact cut_append_cons _ hcolon
    unfold splitHostPort
    rw [hlast]
    dsimp only
    split
    · rename_i rest hbracket
      have hmem' : '[' ∈ host ++ ':' :: port := hbracket ▸ List.mem_cons_self
      simp [hopen, hopen'] at hmem'
    · simp [hmem, hopen, hclose, hopen', hclose']

/-- Without brackets, a text with no colon or with several is not split. -/
theorem splitHostPort_of_count (hhost : ∀ c ∈ host, c ∉ ['[', ']'])
    (hcount : host.count ':' ≠ 1) : splitHostPort host = none := by
  unfold splitHostPort
  split
  · rfl
  · rename_i port before hcut
    obtain ⟨hhost', hport⟩ := cut_eq_some.mp hcut
    have hbefore : ':' ∈ before := by
      by_contra hnone
      refine hcount ?_
      rw [← List.count_reverse, hhost', List.count_append, List.count_cons_self,
        List.count_eq_zero_of_not_mem hport, List.count_eq_zero_of_not_mem hnone]
    split
    · exact absurd (by decide) (hhost '[' List.mem_cons_self)
    · rw [if_pos (.inl hbefore)]

/-- Brackets without a port after them are not split off. -/
theorem splitHostPort_bracketed (hhost : ']' ∉ host) :
    splitHostPort ('[' :: host ++ [']']) = none := by
  have hcut : cut ']' (host ++ [']']) = some (host, []) := cut_append_cons _ hhost
  unfold splitHostPort
  split
  · rfl
  · simp [hcut]

end Split

namespace HostPort

variable {a : HostPort} {host : String}

theorem Plain.brackets (h : Plain host) : ∀ c ∈ host.toList, c ∉ ['[', ']'] :=
  fun c hc hmem => (h c hc).2 (List.mem_cons_of_mem ',' hmem)

/-- No blank and no comma is rendered. -/
theorem Valid.render_plain (h : a.Valid) :
    ∀ c ∈ a.render.toList, isSpace c = false ∧ c ≠ ',' := by
  have hplain : ∀ {host : String}, Plain host →
      ∀ c ∈ host.toList, isSpace c = false ∧ c ≠ ',' := by
    intro host hhost c hc
    obtain ⟨hspace, hsep⟩ := hhost c hc
    exact ⟨hspace, fun heq => hsep (by simp [heq])⟩
  cases a with
  | bare host => exact hplain h.1
  | bracketed host =>
    simp only [render, String.toList_ofList, List.cons_append, List.mem_cons, List.mem_append,
      List.not_mem_nil, or_false]
    rintro c (rfl | hc | rfl)
    · decide
    · exact hplain h c hc
    · decide
  | joined host port =>
    have hport : ∀ c ∈ (toString port).toList, isSpace c = false ∧ c ≠ ',' := by
      intro c hc
      have hdigit := isDigit_of_mem_toString h.2.1 hc
      refine ⟨isSpace_of_isDigit hdigit, fun heq => ?_⟩
      rw [heq] at hdigit
      exact absurd hdigit (by decide)
    rw [render, String.toList_ofList]
    unfold joinHostPort
    split_ifs
    · simp only [List.cons_append, List.mem_cons, List.mem_append]
      rintro c (rfl | hc | rfl | rfl | hc)
      · decide
      · exact hplain h.1 c hc
      · decide
      · decide
      · exact hport c hc
    · simp only [List.mem_cons, List.mem_append]
      rintro c (hc | rfl | hc)
      · exact hplain h.1 c hc
      · decide
      · exact hport c hc

theorem Valid.render_ne_empty (h : a.Valid) : a.render ≠ "" := by
  cases a with
  | bare host => exact h.2.1
  | bracketed host => simp [render]
  | joined host port =>
    intro hempty
    have hnil := congrArg String.toList hempty
    rw [render, String.toList_ofList] at hnil
    unfold joinHostPort at hnil
    split_ifs at hnil <;> simp at hnil

theorem Valid.isName (h : a.Valid) : IsName [','] a.render := by
  refine ⟨h.render_ne_empty, trim_of_neg fun c hc => (h.render_plain c hc).1, ?_⟩
  intro sep hsep hmem
  rw [List.mem_singleton.mp hsep] at hmem
  exact (h.render_plain ',' hmem).2 rfl

/-- What the loop makes of one address. -/
theorem Valid.normalizeHost (h : a.Valid) (acc : List String × ℤ) :
    normalizeHost acc a.render = (acc.1 ++ [a.dialled], a.port.getD acc.2) := by
  have htrim : trimSpace a.render.toList = a.render.toList := h.isName.2.1
  unfold ControlPlane.normalizeHost
  rw [htrim]
  split
  · rename_i hnil
    exact absurd (String.toList_eq_nil_iff.mp hnil) h.render_ne_empty
  · rename_i c cs hcons
    rw [← hcons]
    cases a with
    | bare host =>
      rw [render, splitHostPort_of_count h.1.brackets h.2.2]
      simp [dialled, port]
    | bracketed host =>
      have hclose : ']' ∉ host.toList := fun hmem => Plain.brackets h ']' hmem (by decide)
      rw [render, String.toList_ofList, splitHostPort_bracketed hclose]
      rfl
    | joined host port =>
      have hport : ∀ c ∈ (toString port).toList, c ∉ [':', '[', ']'] := by
        intro c hc hmem
        have hdigit := isDigit_of_mem_toString h.2.1 hc
        simp only [List.mem_cons, List.not_mem_nil, or_false] at hmem
        rcases hmem with rfl | rfl | rfl <;> exact absurd hdigit (by decide)
      rw [render, String.toList_ofList, splitHostPort_joinHostPort h.1.brackets hport]
      simp only [dialled, HostPort.port, String.ofList_toList, parseInt_toString h.2.1 h.2.2,
        Option.getD_some]

end HostPort

/-- The loop over a list of addresses. -/
theorem foldl_normalizeHost {addrs : List HostPort} (h : ∀ a ∈ addrs, a.Valid)
    (acc : List String × ℤ) :
    (addrs.map HostPort.render).foldl normalizeHost acc =
      (acc.1 ++ addrs.map HostPort.dialled, (addrs.filterMap HostPort.port).getLastD acc.2) := by
  induction addrs generalizing acc with
  | nil => simp
  | cons a addrs ih =>
    rw [List.map_cons, List.foldl_cons, (h a List.mem_cons_self).normalizeHost,
      ih fun b hb => h b (List.mem_cons_of_mem a hb)]
    cases hp : a.port with
    | none => simp [hp]
    | some p =>
      rw [List.filterMap_cons_some hp, List.getLastD_cons]
      simp

/-- **The hosts that are dialled.** Whatever addresses are set in the environment, the database
module dials their hosts in the given order, a bracketed address without a port with its brackets;
it dials all of them at one port, the last one that is given, and 9042 if there is none. -/
theorem cassandra_hosts_dialled {env : Environment} (addrs : List HostPort) (hne : addrs ≠ [])
    (h : ∀ a ∈ addrs, a.Valid)
    (henv : env.getenv "CASSANDRA_HOSTS" =
      String.ofList ([','].intercalate (addrs.map fun a => a.render.toList))) :
    normalizeHosts (splitOr env "CASSANDRA_HOSTS" "localhost:9042") =
      (addrs.map HostPort.dialled, (addrs.filterMap HostPort.port).getLastD 9042) := by
  have hnames : ∀ f ∈ addrs.map HostPort.render, IsName [','] f := by
    intro f hf
    obtain ⟨a, ha, rfl⟩ := List.mem_map.mp hf
    exact (h a ha).isName
  have hmapped : addrs.map HostPort.render ≠ [] := by simpa using hne
  have hlist : nonBlank ',' ([','].intercalate (addrs.map fun a => a.render.toList)) =
      addrs.map HostPort.render := by
    have hjoined := nonBlank_intercalate List.mem_cons_self hnames hmapped
    rw [List.map_map] at hjoined
    exact hjoined
  have hset : env.getenv "CASSANDRA_HOSTS" ≠ "" := by
    intro hempty
    rw [henv, String.ofList_eq_empty_iff] at hempty
    rw [hempty] at hlist
    exact hmapped hlist.symm
  have hsplit : splitOr env "CASSANDRA_HOSTS" "localhost:9042" = addrs.map HostPort.render := by
    unfold splitOr envOr
    rw [if_neg hset, henv, String.toList_ofList]
    exact hlist
  unfold normalizeHosts
  rw [hsplit, foldl_normalizeHost h, List.nil_append]
  dsimp only
  rw [if_neg (by simpa using hne)]

/-- Two addresses with ports of their own, and three without, one of them in brackets. -/
def fiveHosts : List HostPort :=
  [.joined "cass-1" 9142, .joined "fd00::1" 9242, .bare "10.0.0.7", .bare "fd00::2",
    .bracketed "fd00::3"]

theorem HostPort.plain_of_all {host : String}
    (h : (host.toList.all fun c => !isSpace c && decide (c ∉ [',', '[', ']'])) = true) :
    Plain host := by
  intro c hc
  have hplain := List.all_eq_true.mp h c hc
  rwa [Bool.and_eq_true, Bool.not_eq_true', decide_eq_true_eq] at hplain

/-- The second port is used for all hosts, and the last one keeps its brackets. -/
theorem cassandra_hosts_dialled_five :
    normalizeHosts (splitOr
      ⟨fun _ => "cass-1:9142,[fd00::1]:9242,10.0.0.7,fd00::2,[fd00::3]", none⟩
      "CASSANDRA_HOSTS" "localhost:9042") =
      (["cass-1", "fd00::1", "10.0.0.7", "fd00::2", "[fd00::3]"], 9242) := by
  have hvalid : ∀ a ∈ fiveHosts, a.Valid := by
    intro a ha
    simp only [fiveHosts, List.mem_cons, List.not_mem_nil, or_false] at ha
    rcases ha with rfl | rfl | rfl | rfl | rfl
    · exact ⟨HostPort.plain_of_all (by decide), by decide⟩
    · exact ⟨HostPort.plain_of_all (by decide), by decide⟩
    · exact ⟨HostPort.plain_of_all (by decide), by decide⟩
    · exact ⟨HostPort.plain_of_all (by decide), by decide⟩
    · exact HostPort.plain_of_all (by decide)
  exact cassandra_hosts_dialled fiveHosts (by decide) hvalid (by decide +kernel)

end ControlPlane
