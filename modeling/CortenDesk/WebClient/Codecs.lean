import CortenDesk.Lib.ProtobufCodec
import CortenDesk.Lib.ProtobufWire
import CortenDesk.WebClient.Messages
import CortenDesk.WebClient.Schemas

/-!
What the generated codecs keep: messages come back as they were sent, also from a peer whose schema
has fields that this one does not know, and a frame too short for a member of its union has none.
-/
namespace CortenDesk
namespace WebClient
namespace Codecs
open Protobuf Schema

theorem messages_come_back (wire : Wire) (lawful : wire.Lawful) :
    (∀ m v bs, messages.encode wire m v = .ok bs → v.Kept → messages.decode wire m bs = .ok v) ∧
      ∀ m v bs, rendezvous.encode wire m v = .ok bs → v.Kept → rendezvous.decode wire m bs = .ok v :=
  ⟨fun _ _ _ wrote kept => decode_sent lawful (sends_of_encode wrote) kept,
    fun _ _ _ wrote kept => decode_sent lawful (sends_of_encode wrote) kept⟩

/-- A letter that is pressed with a modifier. -/
def letter : List Value :=
  [.boolean true, .boolean false, .case "chr" (.number 97), .array [.number 5], .number 1]

theorem letter_kept : ∀ v ∈ letter, v.Kept := by
  have modifiers : ∀ v ∈ [Value.number 5], v.Kept := fun v mem => by
    rw [List.mem_singleton.mp mem]
    exact .number 5
  intro v mem
  simp only [letter, List.mem_cons, List.not_mem_nil, or_false] at mem
  obtain rfl | rfl | rfl | rfl | rfl := mem
  · exact .boolean true
  · exact .boolean false
  · exact .case "chr" _ (.number 97)
  · exact .array _ modifiers
  · exact .number 1

theorem letter_comes_back :
    messages.decode binary .keyEvent [8, 1, 32, 97, 66, 1, 5, 72, 1] = .ok (.object letter) :=
  (messages_come_back binary binary_lawful).1 .keyEvent (.object letter) _ rfl (.object _ letter_kept)

/-- The fields that a later schema adds change nothing, wherever they stand: between the fields of
an object, between the items of a list, and in the messages inside. -/
theorem later_fields_ignored (wire : Wire) (lawful : wire.Lawful) :
    ((∀ m values parts bs, pieces wire (messages.encode wire) m.slots values = .ok parts →
        messages.Padded wire m parts bs → messages.Sends wire m (.object values) bs) ∧
      ∀ m v bs, messages.Sends wire m v bs → v.Kept → messages.decode wire m bs = .ok v) ∧
    (∀ m values parts bs, pieces wire (rendezvous.encode wire) m.slots values = .ok parts →
        rendezvous.Padded wire m parts bs → rendezvous.Sends wire m (.object values) bs) ∧
      ∀ m v bs, rendezvous.Sends wire m v bs → v.Kept → rendezvous.decode wire m bs = .ok v :=
  ⟨⟨fun _ _ _ _ => sends_of_padded, fun _ _ _ sent kept => decode_sent lawful sent kept⟩,
    fun _ _ _ _ => sends_of_padded, fun _ _ _ sent kept => decode_sent lawful sent kept⟩

theorem unknown_number : messages.Unknown binary .fileEntry [162, 6, 1, 7] :=
  ⟨802, [162, 6], [1, 7], rfl, rfl, by decide, by decide, by decide, fun _ => rfl⟩

/-- A group of one field. -/
theorem unknown_group : messages.Unknown binary .fileDirectory [131, 1, 8, 129, 1, 132, 1] := by
  refine ⟨131, [131, 1], [8, 129, 1, 132, 1], rfl, rfl, ?_, ?_, ?_, fun rest => ?_⟩
  · decide
  · decide
  · decide
  have field : Binary.readTag (8 :: 129 :: 1 :: 132 :: 1 :: rest) = .ok (1, 0, 129 :: 1 :: 132 :: 1 :: rest) :=
    rfl
  have ends : Binary.readTag (132 :: 1 :: rest) = .ok (16, 4, rest) := by
    have number : Binary.readVarint 9 (132 :: 1 :: rest) = .ok (132, rest) := rfl
    rw [Binary.readTag, number]
    rfl
  change Binary.skipGroup (rest.length + 3 + 1 + 1 + 1) none (8 :: 129 :: 1 :: 132 :: 1 :: rest) = .ok rest
  have inner : Binary.skipPlain 0 (129 :: 1 :: 132 :: 1 :: rest) = .ok (132 :: 1 :: rest) := rfl
  rw [Binary.skipGroup_succ field, if_neg (by decide), if_neg (by decide), inner, Except.bind,
    Binary.skipGroup_succ ends, if_pos rfl]
  rfl

/-- A folder of a link and a file. -/
def folder : Value :=
  .object [.number 1, .text "", .array [
    .object [.number 2, .text "", .boolean false, .number 0, .number 0],
    .object [.number 4, .text "", .boolean false, .number 9, .number 0]]]

theorem folder_kept : folder.Kept := by
  have entry (type size : Int) : (Value.object [.number type, .text "", .boolean false, .number size,
      .number 0]).Kept := by
    refine .object _ fun v mem => ?_
    simp only [List.mem_cons, List.not_mem_nil, or_false] at mem
    obtain rfl | rfl | rfl | rfl | rfl := mem
    · exact .number type
    · exact .text "" (by decide)
    · exact .boolean false
    · exact .number size
    · exact .number 0
  refine .object _ fun v mem => ?_
  simp only [List.mem_cons, List.not_mem_nil, or_false] at mem
  obtain rfl | rfl | rfl := mem
  · exact .number 1
  · exact .text "" (by decide)
  · refine .array _ fun v mem => ?_
    simp only [List.mem_cons, List.not_mem_nil, or_false] at mem
    obtain rfl | rfl := mem
    · exact entry 2 0
    · exact entry 4 9

/-- The first entry is sent with a field that is not known. -/
theorem link_sent : messages.SendsAt binary 1 .fileEntry
    (.object [.number 2, .text "", .boolean false, .number 0, .number 0]) [8, 2, 162, 6, 1, 7] := by
  have type : FieldSends binary (messages.SendsAt binary 0) 1 (.scalar .int32) (.number 2) [8, 2] :=
    ⟨[8], [2], rfl, rfl, rfl⟩
  refine ⟨_, [[8, 2]], rfl, .cons (.plain rfl type) ?_, .field _ (.unknown unknown_number .nil)⟩
  exact .cons (.default rfl) (.cons (.default rfl) (.cons (.default rfl) (.cons (.default rfl) .nil)))

theorem file_sent : messages.SendsAt binary 1 .fileEntry
    (.object [.number 4, .text "", .boolean false, .number 9, .number 0]) [8, 4, 32, 9] := by
  have type : FieldSends binary (messages.SendsAt binary 0) 1 (.scalar .int32) (.number 4) [8, 4] :=
    ⟨[8], [4], rfl, rfl, rfl⟩
  have size : FieldSends binary (messages.SendsAt binary 0) 4 (.scalar .uint64) (.number 9) [32, 9] :=
    ⟨[32], [9], rfl, rfl, rfl⟩
  refine ⟨_, [[8, 4], [32, 9]], rfl, .cons (.plain rfl type) ?_, .field _ (.field _ .nil)⟩
  exact .cons (.default rfl) (.cons (.default rfl) (.cons (.plain rfl size) (.cons (.default rfl) .nil)))

/-- Between the entries stands a group that is not known. -/
theorem folder_sent : messages.Sends binary .fileDirectory folder
    [8, 1, 26, 6, 8, 2, 162, 6, 1, 7, 131, 1, 8, 129, 1, 132, 1, 26, 4, 8, 4, 32, 9] := by
  have number : FieldSends binary (messages.SendsAt binary 1) 1 (.scalar .int32) (.number 1) [8, 1] :=
    ⟨[8], [1], rfl, rfl, rfl⟩
  have first : FieldSends binary (messages.SendsAt binary 1) 3 (.message .fileEntry) _
      [26, 6, 8, 2, 162, 6, 1, 7] := ⟨[26], _, rfl, ⟨_, link_sent, rfl⟩, rfl⟩
  have second : FieldSends binary (messages.SendsAt binary 1) 3 (.message .fileEntry) _
      [26, 4, 8, 4, 32, 9] := ⟨[26], _, rfl, ⟨_, file_sent, rfl⟩, rfl⟩
  refine ⟨2, _, [[8, 1], [26, 6, 8, 2, 162, 6, 1, 7], [26, 4, 8, 4, 32, 9]], rfl, ?_, ?_⟩
  · exact .cons (.plain rfl number) (.cons (.default rfl)
      (.cons (.repeated (.cons first (.cons second .nil))) .nil))
  · exact .field _ (.field _ (.unknown unknown_group (.field _ .nil)))

theorem folder_of_later_peer :
    messages.decode binary .fileDirectory
      [8, 1, 26, 6, 8, 2, 162, 6, 1, 7, 131, 1, 8, 129, 1, 132, 1, 26, 4, 8, 4, 32, 9] = .ok folder :=
  (later_fields_ignored binary binary_lawful).1.2 .fileDirectory folder _ folder_sent folder_kept

/-- One message behind another: its fields stand over those of the first and its lists behind them.
A message inside it stands over the one before as a whole. -/
theorem messages_merge (wire : Wire) (lawful : wire.Lawful) (m : MessageType) (a b : List Value)
    (bs cs : Bytes) (first : messages.encode wire m (.object a) = .ok bs)
    (second : messages.encode wire m (.object b) = .ok cs) (kept : ∀ v ∈ a, v.Kept)
    (kept' : ∀ v ∈ b, v.Kept) :
    messages.decode wire m (bs ++ cs) = .ok (.object (mergeAll m.slots a b)) :=
  decode_append lawful (sends_of_encode first) (sends_of_encode second) kept kept'

theorem letter_twice :
    messages.decode binary .keyEvent
        ([8, 1, 32, 97, 66, 1, 5, 72, 1] ++ [8, 1, 32, 97, 66, 1, 5, 72, 1]) =
      .ok (.object [.boolean true, .boolean false, .case "chr" (.number 97),
        .array [.number 5, .number 5], .number 1]) :=
  messages_merge binary binary_lawful .keyEvent letter letter _ _ rfl rfl letter_kept letter_kept

/-- What the channel takes for granted of the decoder, of which it sees the union only. -/
theorem short_frames_empty (wire : Wire) (lawful : wire.Lawful) {Bytes : Type} (api : Api Bytes)
    (octets : Bytes → List UInt8) (length : ∀ frame, (octets frame).length = api.length frame)
    (view : Value → Message Bytes) (undefined : (view (.object [.undefined])).union = none)
    (decodes : ∀ frame, api.decodeMessage frame =
      (messages.decode wire .message (octets frame)).map view) : api.ShortFramesEmpty := by
  intro frame message short decoded
  rw [decodes] at decoded
  obtain ⟨v, read, rfl⟩ := Except.map_eq_ok.mp decoded
  have empty := decode_short lawful (by rw [length]; exact short) read
  rw [empty]
  exact undefined

/-- Calls on octets, with the sealing left out. -/
def plainApi (view : Value → Message (List UInt8)) : Api (List UInt8) where
  length := List.length
  empty := []
  concat := List.append
  utf8 text := text.toUTF8.toList
  ofHex _ := []
  sha256 := id
  cryptoSignOpen signed _ := .ok signed
  cryptoBoxEasy plain _ _ _ := .ok plain
  cryptoSecretboxEasy plain _ _ := plain
  cryptoSecretboxOpenEasy box _ _ := .ok box
  decodeIdPk _ := .error "premature EOF"
  decodeMessage frame := (messages.decode binary .message frame).map view
  encodeMessage _ := []
  decodeRendezvous _ := .ok none
  encodeRendezvous _ := []

def view : Value → Message (List UInt8)
  | .object [.case "signed_id" (.object [.bytes id])] => ⟨some (.signedId id)⟩
  | .object [.case _ _] => ⟨some (.other [])⟩
  | _ => ⟨none⟩

theorem plain_short_frames_empty : (plainApi view).ShortFramesEmpty :=
  short_frames_empty binary binary_lawful (plainApi view) id (fun _ => rfl) view rfl fun _ => rfl

end Codecs
end WebClient
end CortenDesk
