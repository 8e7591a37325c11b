import ControlPlane.EventStream
import ControlPlane.Json.Encode
import ControlPlane.Json.Decode
import ControlPlane.App.Stream

/-!
# The text of a stream response

`handleStream` writes a frame as an event of kind `message` whose data are a JSON object. The
encoder escapes every control character of the strings, so the object stands on one line
whatever the message contains, and no part of a message can end its frame or start another
one. A client that receives some part of the response reads exactly the frames that are
complete in it.
-/

namespace ControlPlane

open EventStream

section Text

-- The format of times; a time that the encoder refuses has none.
variable (formatTime : Time → Option String) (f : Frame)

/-- The object of a frame. The encoder writes the keys of a map in order. -/
def Frame.object (ts : String) : Json :=
  .obj [("data", .str f.data), ("messageId", .str f.messageId), ("subject", .str f.subject),
    ("ts", .str ts)]

/-- The encoded object. The error of the encoder is ignored and leaves nothing. -/
def Frame.raw : List Char :=
  match formatTime f.ts with
  | some ts => (f.object ts).encode
  | none => []

/-- What `handleStream` writes for a message. -/
def Frame.text : List Char :=
  "event: message\n".toList ++ ("data: ".toList ++ f.raw formatTime ++ "\n\n".toList)

/-- The event that a client reads from a frame. -/
def Frame.event : Event := ⟨"message".toList, f.raw formatTime⟩

end Text

/-- The message identifier that the data of an event name. -/
def messageIdOf (e : Event) : Option String :=
  match Json.unmarshal e.data with
  | some (.obj members) =>
      match members.lookup "messageId" with
      | some (.str messageID) => some messageID
      | _ => none
  | _ => none

section Reading

variable {formatTime : Time → Option String} {f : Frame}

theorem Frame.text_eq (f : Frame) : f.text formatTime = (f.event formatTime).text := by
  have hdata : "data: ".toList ++ f.raw formatTime ++ "\n\n".toList =
      fieldLine "data".toList (f.raw formatTime) ++ ['\n'] := by
    have hname : "data: ".toList = "data".toList ++ [':', ' '] := by decide
    have hend : "\n\n".toList = ['\n'] ++ ['\n'] := by decide
    rw [hname, hend, fieldLine]
    simp only [List.append_assoc, List.cons_append, List.nil_append]
  unfold Frame.text
  rw [hdata, Event.text, Event.fields, List.append_assoc]
  rfl

theorem Frame.numeric_object (f : Frame) (ts : String) : (f.object ts).Numeric :=
  ⟨trivial, trivial, trivial, trivial, trivial⟩

theorem Frame.raw_printable (f : Frame) : Json.Printable (f.raw formatTime) := by
  unfold Frame.raw
  cases formatTime f.ts with
  | some ts => exact Json.encode_printable _ (f.numeric_object ts)
  | none => exact .nil

theorem oneLine_of_printable {t : List Char} (h : Json.Printable t) : OneLine t := by
  intro c hc
  have hprint := h c hc
  constructor
  · rintro rfl
    exact absurd hprint (by decide)
  · rintro rfl
    exact absurd hprint (by decide)

/-- A frame is one event, whatever its message contains. -/
theorem Frame.writable_event (f : Frame) : (f.event formatTime).Writable where
  kind_ne := List.cons_ne_nil 'm' "essage".toList
  kind_line := by
    have hkind : OneLine "message".toList := by simp [OneLine]
    exact hkind
  data_line := oneLine_of_printable f.raw_printable

/-- The data of a frame decode to its object. -/
theorem Frame.unmarshal_raw {ts : String} (h : formatTime f.ts = some ts) :
    Json.unmarshal (f.raw formatTime) = some (f.object ts) := by
  have hone : Json.depth (f.object ts) = 1 := rfl
  have hdepth : Json.depth (f.object ts) ≤ Json.maxNestingDepth := by
    rw [hone]
    decide
  have hparse := Json.parse_encode (f.numeric_object ts) hdepth
  have hraw : f.raw formatTime = (f.object ts).encode := by
    rw [Frame.raw, h]
  rw [hraw, Json.unmarshal, hparse]
  rfl

/-- The event of a frame names the message of the frame, or none if the time has no format. -/
theorem Frame.messageId_of_event {messageID : String}
    (h : messageIdOf (f.event formatTime) = some messageID) : f.messageId = messageID := by
  unfold messageIdOf at h
  cases hts : formatTime f.ts with
  | some ts =>
    have hdata : Json.unmarshal (f.event formatTime).data = some (f.object ts) :=
      Frame.unmarshal_raw hts
    rw [hdata] at h
    exact Option.some.inj h
  | none =>
    have hempty : (f.event formatTime).data = [] := by
      rw [Frame.event, Frame.raw, hts]
    have hdata : Json.unmarshal [] = none := by decide
    rw [hempty, hdata] at h
    cases h

theorem flatMap_frame_text (frames : List Frame) : frames.flatMap (Frame.text formatTime) =
    (frames.map (Frame.event formatTime)).flatMap Event.text := by
  rw [List.flatMap_map]
  exact congrArg (fun g => frames.flatMap g) (funext Frame.text_eq)

theorem writable_frames (frames : List Frame) :
    ∀ e ∈ frames.map (Frame.event formatTime), e.Writable := by
  intro e he
  obtain ⟨f, -, rfl⟩ := List.mem_map.mp he
  exact f.writable_event

/-- From a whole response a client reads its frames. -/
theorem read_all_frames (frames : List Frame) : read (frames.flatMap (Frame.text formatTime)) =
    frames.map (Frame.event formatTime) := by
  rw [flatMap_frame_text, read_flatMap_text (writable_frames frames)]

/-- From a part of the response a client reads the first `n` frames, where `n` counts the frames
that have arrived completely. -/
theorem read_frames {frames : List Frame} {arrived : List Char}
    (h : arrived <+: frames.flatMap (Frame.text formatTime)) :
    ∃ n ≤ frames.length,
      (∀ k ≤ frames.length, (frames.take k).flatMap (Frame.text formatTime) <+: arrived ↔ k ≤ n) ∧
      read arrived = (frames.take n).map (Frame.event formatTime) := by
  rw [flatMap_frame_text] at h
  obtain ⟨n, hle, hn, hread⟩ := read_eq_take (writable_frames frames) h
  rw [List.length_map] at hle hn
  refine ⟨n, hle, fun k hk => ?_, by rw [hread, List.map_take]⟩
  rw [flatMap_frame_text, List.map_take]
  exact hn k hk

end Reading

end ControlPlane
