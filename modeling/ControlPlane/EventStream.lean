import Mathlib.Data.List.Basic
import Mathlib.Data.List.Infix

/-!
# Event streams

The text format of server-sent events. A client reads the text character by character, breaks
it into lines and collects the fields of an event until an empty line dispatches it. What was
read of an event that the text does not complete is lost. So a client that receives the
front part of a stream, however it is cut, dispatches exactly the events that are complete
in it.
-/

namespace ControlPlane.EventStream

/-- An event as a client dispatches it. -/
structure Event where
  kind : List Char
  data : List Char
  deriving DecidableEq

/-- A client: the line that it is reading, whether the last character was a carriage return,
the buffers of the fields, and the events that it dispatched. -/
structure Client where
  line : List Char
  afterReturn : Bool
  kind : List Char
  data : List Char
  events : List Event

namespace Client

/-- A client that has read nothing. -/
def start : Client := ⟨[], false, [], [], []⟩

variable (c : Client)

/-- The end of an event. An event without data is not dispatched, and one without a kind is a
message. -/
def dispatch : Client :=
  if c.data = [] then { c with kind := [], data := [] }
  else
    { c with
      kind := []
      data := []
      events := c.events ++
        [⟨if c.kind = [] then "message".toList else c.kind, c.data.dropLast⟩] }

/-- A field of the event. The fields of the reconnection protocol change neither the kinds nor
the data of the events. -/
def field (name value : List Char) : Client :=
  if name = "event".toList then { c with kind := value }
  else if name = "data".toList then { c with data := c.data ++ value ++ ['\n'] }
  else c

/-- The value of a field without the blank in front of it. -/
def fieldValue : List Char → List Char
  | ' ' :: value => value
  | value => value

/-- A line with the end of the line left out. -/
def interpret (line : List Char) : Client :=
  match line with
  | [] => c.dispatch
  | ':' :: _ => c
  | line =>
      c.field (line.takeWhile (· ≠ ':')) (fieldValue ((line.dropWhile (· ≠ ':')).drop 1))

/-- The end of the line that the client is reading. -/
def endLine : Client := { c.interpret c.line with line := [] }

/-- One more character. A line feed after a carriage return belongs to the same end of a
line. -/
def feed (ch : Char) : Client :=
  if ch = '\n' then
    if c.afterReturn then { c with afterReturn := false } else c.endLine
  else if ch = '\r' then { c.endLine with afterReturn := true }
  else { c with line := c.line ++ [ch], afterReturn := false }

end Client

/-- The events that a client dispatches for a text. A byte order mark in front is no part of
the stream. -/
def read (t : List Char) : List Event :=
  let t := match t with
    | '\ufeff' :: t => t
    | t => t
  (t.foldl Client.feed .start).events

/-- The line of a field. -/
def fieldLine (name value : List Char) : List Char := name ++ ':' :: ' ' :: value ++ ['\n']

/-- The fields of an event whose data stand on one line. -/
def Event.fields (e : Event) : List Char :=
  fieldLine "event".toList e.kind ++ fieldLine "data".toList e.data

/-- The text of an event: its fields and an empty line. -/
def Event.text (e : Event) : List Char := e.fields ++ ['\n']

/-- The text has no line breaks. -/
def OneLine (t : List Char) : Prop := ∀ c ∈ t, c ≠ '\n' ∧ c ≠ '\r'

/-- The event has a kind, and the kind and the data stand on one line each. -/
structure Event.Writable (e : Event) : Prop where
  kind_ne : e.kind ≠ []
  kind_line : OneLine e.kind
  data_line : OneLine e.data

section Reading

variable (c : Client)

/-- A client dispatches events and does not take them back. -/
theorem Client.field_events (name value : List Char) : (c.field name value).events = c.events := by
  unfold Client.field
  split_ifs <;> rfl

theorem Client.endLine_events : c.events <+: c.endLine.events := by
  simp only [Client.endLine, Client.interpret]
  split
  · unfold Client.dispatch
    split
    · exact List.prefix_rfl
    · exact List.prefix_append _ _
  · exact List.prefix_rfl
  · rw [Client.field_events]

theorem Client.feed_events (ch : Char) : c.events <+: (c.feed ch).events := by
  unfold Client.feed
  split_ifs
  · exact List.prefix_rfl
  · exact c.endLine_events
  · exact c.endLine_events
  · exact List.prefix_rfl

theorem Client.foldl_feed_events (t : List Char) :
    c.events <+: (t.foldl Client.feed c).events := by
  induction t generalizing c with
  | nil => exact List.prefix_rfl
  | cons ch t ih => exact (c.feed_events ch).trans (ih (c.feed ch))

/-- A client collects the characters of a line. -/
theorem Client.foldl_feed_line {t line kind data : List Char} {events : List Event}
    (ht : OneLine t) :
    t.foldl Client.feed ⟨line, false, kind, data, events⟩ =
      ⟨line ++ t, false, kind, data, events⟩ := by
  induction t generalizing line with
  | nil => simp
  | cons ch t ih =>
    have hch := ht ch List.mem_cons_self
    have hfeed : Client.feed ⟨line, false, kind, data, events⟩ ch =
        ⟨line ++ [ch], false, kind, data, events⟩ := by
      simp [Client.feed, hch.1, hch.2]
    rw [List.foldl_cons, hfeed, ih fun d hd => ht d (List.mem_cons_of_mem ch hd)]
    simp

/-- A line with a colon names a field. -/
theorem Client.interpret_field {name : List Char} (value : List Char) (hcolon : ':' ∉ name)
    (hne : name ≠ []) : c.interpret (name ++ ':' :: ' ' :: value) = c.field name value := by
  have hsplit : ∀ ch ∈ name, decide (ch ≠ ':') = true := by
    intro ch hch
    exact decide_eq_true fun heq => hcolon (heq ▸ hch)
  unfold Client.interpret
  split
  · rename_i heq
    simp [hne] at heq
  · rename_i rest heq
    obtain ⟨ch, name, rfl⟩ := List.exists_cons_of_ne_nil hne
    simp only [List.cons_append, List.cons.injEq] at heq
    exact absurd (heq.1 ▸ List.mem_cons_self) hcolon
  · rw [List.takeWhile_append_of_pos hsplit, List.dropWhile_append_of_pos hsplit]
    simp [Client.fieldValue]

/-- The effect of a line that names a field. -/
theorem Client.foldl_feed_field {name value kind data : List Char} {events : List Event}
    (hname : OneLine name) (hcolon : ':' ∉ name) (hne : name ≠ []) (hvalue : OneLine value) :
    (fieldLine name value).foldl Client.feed ⟨[], false, kind, data, events⟩ =
      { Client.field ⟨name ++ ':' :: ' ' :: value, false, kind, data, events⟩ name value with
        line := [] } := by
  have hline : OneLine (name ++ ':' :: ' ' :: value) := by
    intro ch hch
    simp only [List.mem_append, List.mem_cons] at hch
    rcases hch with hch | rfl | rfl | hch
    · exact hname ch hch
    · decide
    · decide
    · exact hvalue ch hch
  rw [fieldLine, List.foldl_append, Client.foldl_feed_line hline, List.nil_append]
  simp only [List.foldl_cons, List.foldl_nil, Client.feed, if_true, Bool.false_eq_true, if_false,
    Client.endLine, Client.interpret_field _ value hcolon hne]

variable {e : Event} {events : List Event}

/-- The fields of an event fill the buffers. -/
theorem Client.foldl_feed_fields (he : e.Writable) :
    e.fields.foldl Client.feed ⟨[], false, [], [], events⟩ =
      ⟨[], false, e.kind, e.data ++ ['\n'], events⟩ := by
  have hevent : OneLine "event".toList := by simp [OneLine]
  have hdata : OneLine "data".toList := by simp [OneLine]
  rw [Event.fields, List.foldl_append,
    Client.foldl_feed_field hevent (by decide) (by decide) he.kind_line]
  simp only [Client.field, if_true]
  rw [Client.foldl_feed_field hdata (by decide) (by decide) he.data_line]
  simp [Client.field]

/-- The text of an event dispatches it. -/
theorem Client.foldl_feed_text (he : e.Writable) :
    e.text.foldl Client.feed ⟨[], false, [], [], events⟩ =
      ⟨[], false, [], [], events ++ [e]⟩ := by
  rw [Event.text, List.foldl_append, Client.foldl_feed_fields he]
  simp [Client.feed, Client.endLine, Client.interpret, Client.dispatch, he.kind_ne]

/-- A part of the text of an event that is not all of it dispatches nothing. -/
theorem Client.foldl_feed_part {p : List Char} (he : e.Writable) (hp : p <+: e.text)
    (hne : p ≠ e.text) :
    (p.foldl Client.feed ⟨[], false, [], [], events⟩).events = events := by
  have hfields : p <+: e.fields := by
    rw [Event.text] at hp hne
    exact (List.prefix_concat_iff.mp hp).resolve_left hne
  obtain ⟨rest, hrest⟩ := hfields
  have hle := Client.foldl_feed_events (p.foldl Client.feed ⟨[], false, [], [], events⟩) rest
  rw [← List.foldl_append, hrest, Client.foldl_feed_fields he] at hle
  have hge := Client.foldl_feed_events ⟨[], false, [], [], events⟩ p
  exact hle.eq_of_length_le hge.length_le

/-- A client that receives a part of the events dispatches those that are complete in it. -/
theorem Client.foldl_feed_events_eq {es : List Event} {p : List Char}
    (hes : ∀ e ∈ es, e.Writable) (hp : p <+: es.flatMap Event.text) :
    ∃ done rest, es = done ++ rest ∧ done.flatMap Event.text <+: p ∧
      (∀ e ∈ rest.head?, ¬(done ++ [e]).flatMap Event.text <+: p) ∧
      (p.foldl Client.feed ⟨[], false, [], [], events⟩).events = events ++ done := by
  induction es generalizing p events with
  | nil =>
    have hnil : p = [] := by simpa using hp
    exact ⟨[], [], rfl, by simp, by simp, by simp [hnil]⟩
  | cons e es ih =>
    have he := hes e List.mem_cons_self
    rw [List.flatMap_cons] at hp
    by_cases hwhole : e.text <+: p
    · obtain ⟨q, rfl⟩ := hwhole
      have hq : q <+: es.flatMap Event.text := (List.prefix_append_right_inj e.text).mp hp
      obtain ⟨done, rest, rfl, hdone, hrest, hevents⟩ :=
        ih (fun d hd => hes d (List.mem_cons_of_mem e hd)) hq
      refine ⟨e :: done, rest, rfl, ?_, ?_, ?_⟩
      · exact (List.prefix_append_right_inj e.text).mpr hdone
      · intro d hd hprefix
        exact hrest d hd ((List.prefix_append_right_inj e.text).mp hprefix)
      · rw [List.foldl_append, Client.foldl_feed_text he, hevents]
        simp
    · have hpart : p <+: e.text :=
        (List.prefix_or_prefix_of_prefix hp (List.prefix_append _ _)).resolve_right hwhole
      refine ⟨[], e :: es, rfl, List.nil_prefix, ?_, ?_⟩
      · intro d hd hprefix
        cases hd
        exact hwhole (by simpa using hprefix)
      · rw [Client.foldl_feed_part he hpart fun heq => hwhole (heq ▸ List.prefix_rfl)]
        simp

/-- Reading a part of the text of some events gives those that are complete in it. -/
theorem read_of_isPrefix {es : List Event} {p : List Char} (hes : ∀ e ∈ es, e.Writable)
    (hp : p <+: es.flatMap Event.text) :
    ∃ done rest, es = done ++ rest ∧ done.flatMap Event.text <+: p ∧
      (∀ e ∈ rest.head?, ¬(done ++ [e]).flatMap Event.text <+: p) ∧ read p = done := by
  have hmark : read p = (p.foldl Client.feed .start).events := by
    unfold read
    split
    · rename_i q
      exfalso
      -- The text of an event starts with the name of a field.
      cases es with
      | nil => simp at hp
      | cons e es =>
        obtain ⟨r, hr⟩ := hp
        have hhead := congrArg List.head? hr
        cases hhead
    · rfl
  obtain ⟨done, rest, hsplit, hdone, hrest, hevents⟩ :=
    Client.foldl_feed_events_eq hes hp
  exact ⟨done, rest, hsplit, hdone, hrest, hmark.trans hevents⟩

/-- Reading a part of the text of some events gives the first `n` of them, where `n` counts the
events whose text has arrived completely. -/
theorem read_eq_take {es : List Event} {p : List Char} (hes : ∀ e ∈ es, e.Writable)
    (hp : p <+: es.flatMap Event.text) :
    ∃ n ≤ es.length, (∀ k ≤ es.length, (es.take k).flatMap Event.text <+: p ↔ k ≤ n) ∧
      read p = es.take n := by
  obtain ⟨done, rest, rfl, hdone, hrest, hread⟩ := read_of_isPrefix hes hp
  refine ⟨done.length, by simp, fun k hk => ⟨fun hprefix => ?_, fun hle => ?_⟩, by simp [hread]⟩
  · by_contra hlt
    cases rest with
    | nil =>
      rw [List.append_nil] at hk
      exact hlt hk
    | cons e rest =>
      -- The first events up to `e` are among the first `k`.
      have hlength : (done ++ [e]).length ≤ k := by
        rw [List.length_append, List.length_singleton]
        omega
      obtain ⟨j, rfl⟩ := Nat.exists_eq_add_of_le hlength
      refine hrest e rfl (List.IsPrefix.trans ?_ hprefix)
      rw [List.append_cons done e rest, List.take_length_add_append]
      conv_rhs => rw [List.flatMap_append]
      exact List.prefix_append _ _
  · rw [List.take_append_of_le_length hle]
    refine List.IsPrefix.trans ?_ hdone
    conv_rhs => rw [← List.take_append_drop k done, List.flatMap_append]
    exact List.prefix_append _ _

/-- Reading the whole text of some events gives them back. -/
theorem read_flatMap_text {es : List Event} (hes : ∀ e ∈ es, e.Writable) :
    read (es.flatMap Event.text) = es := by
  obtain ⟨n, hle, hn, hread⟩ := read_eq_take hes List.prefix_rfl
  have hall : es.length ≤ n := (hn es.length le_rfl).mp (by rw [List.take_length])
  rw [hread, List.take_of_length_le hall]

end Reading

end ControlPlane.EventStream
