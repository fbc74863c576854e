import ThemeSrv.MessageEncoding
import ThemeSrv.ReaderSegmentation
import ThemeSrv.WriterQueue

/-!
# Encoding and decoding one message

What `enqueue_write` encodes, a peer with the same keystream decodes, provided
that the sizing pass finds the length of the wire and that the peer's buffer
has room for every field.
-/

namespace ThemeSrv

open AllocatedBlock KeystreamCipher

variable {ns : NetStruct} {message : Message ns} {image : Bytes} {c peer : ClientBase}

/-- `enqueue_write` of the image allocates exactly the bytes it encrypts, and
a peer that is handed these bytes decodes an image of the same message. -/
def Message.RoundTrips (message : Message ns) (image : Bytes) (c peer : ClientBase) : Prop :=
  ∃ c' plain wire, enqueueWrite ns image c = .done () c' ∧
    c'.posted = c.posted ++ [⟨ns, plain, wire⟩] ∧ wire.length = plain.length ∧
    ∃ decoded peer', HandleReads { peer with sock := { peer.sock with inbound := [.data wire] } }
      [some decoded] peer' ∧ message.Holds decoded

theorem ClientBase.Awaits.withSocket {encrypt : Context} (awaits : peer.Awaits ns encrypt)
    (sock : Socket) : ({ peer with sock := sock } : ClientBase).Awaits ns encrypt :=
  ⟨awaits.struct, awaits.field, awaits.offset, awaits.buf, awaits.synchronized⟩

/-- A message starts with a fixed field, which is not empty. -/
theorem Message.first_ne_nil (wellFormed : ns.WellFormed) {content : Bytes}
    (found : message.contents[0]? = some content) : content ≠ [] := by
  obtain ⟨field, foundField⟩ := message.exists_field found
  have fixedSize := wellFormed.field_zero_fixed foundField
  rw [← List.length_pos_iff, message.fixed 0 field content foundField found fixedSize]
  exact wellFormed.fixed_pos foundField fixedSize

theorem Message.wire_ne_nil (message : Message ns) (wellFormed : ns.WellFormed) :
    message.wire ≠ [] := by
  obtain ⟨content, found⟩ := message.exists_content wellFormed.nonempty
  have present := List.length_pos_iff.mpr (Message.first_ne_nil wellFormed found)
  have next := message.wireOffset_succ found
  have below : message.wireOffset (0 + 1) ≤ message.wire.length :=
    ConcatenatedParts.boundary_le _ _
  rw [← List.length_pos_iff]
  omega

/-- In one piece a message is cut at its ends only. -/
theorem Message.cutBetweenFields_whole (message : Message ns) {wire : Bytes}
    (sameLength : wire.length = message.wire.length) :
    message.CutBetweenFields 0 [.data wire] := by
  refine Message.cutBetweenFields_cons.mpr ⟨⟨0, by simp [Message.wireOffset]⟩, ?_⟩
  intro front isPrefix
  obtain rfl := List.prefix_nil.mp isPrefix
  refine ⟨ns.size, ?_⟩
  rw [message.wireOffset_size, ← sameLength]
  simp [delivered, ReadAnswer.bytes]

theorem of_roundTrips (wellFormed : ns.WellFormed) (holds : message.Holds image)
    (awaits : peer.Awaits ns c.encrypt) (roundTrips : message.RoundTrips image c peer) :
    ns.sizingCursor image ns.size = some message.wire.length ∧ message.Encryptable ∧
      message.Fits := by
  obtain ⟨c', plain, wire, done, posted, sameLength, decoded, peer', calls, held⟩ := roundTrips
  have case := enqueueCase ns image c
  rw [done] at case
  obtain ⟨wire', encrypt, encoded, -, -, -, recorded⟩ := case.recorded
  obtain ⟨encryptable, sized, rfl⟩ := of_encodeMessage wellFormed holds encoded
  obtain ⟨samePlain, rfl⟩ : plain = message.wire ∧ wire = wire' := by
    have last := List.append_cancel_left (posted.symm.trans recorded)
    simpa using last
  have plainLength : wire.length = message.wire.length := by rw [sameLength, samePlain]
  refine ⟨by rw [sized, plainLength], encryptable, fun index content found => ?_⟩
  have awaits' := awaits.withSocket { peer.sock with inbound := [.data wire] }
  have atField : AtField message c.encrypt
      { peer with sock := { peer.sock with inbound := [.data wire] } } :=
    awaits'.atField wellFormed
  have standing := atField.standing
  have oneCall : HandleReads { peer with sock := { peer.sock with inbound := [.data wire] } }
      (List.replicate 0 none ++ [some decoded]) peer' := calls
  obtain ⟨last, reading, buf, -⟩ := oneCall.reading wellFormed standing
  have completed := reading.completed wellFormed standing
  obtain rfl : last.read.memory = decoded := by simp [ReadState.memory, buf]
  have inside := load_inside (held index content found)
  rw [completed.allocated] at inside
  exact inside

theorem roundTrips_of (wellFormed : ns.WellFormed) (holds : message.Holds image)
    (awaits : peer.Awaits ns c.encrypt)
    (sized : ns.sizingCursor image ns.size = some message.wire.length)
    (encryptable : message.Encryptable) (fits : message.Fits) :
    message.RoundTrips image c peer := by
  have encoded : encodeMessage ns image c.encrypt = _ :=
    encodeMessage_eq wellFormed holds encryptable sized
  obtain ⟨c', done⟩ := enqueueWrite_of_encoded encoded
  have case := enqueueCase ns image c
  rw [done] at case
  obtain ⟨wire, encrypt, encoded', -, -, -, posted⟩ := case.recorded
  obtain ⟨rfl, rfl⟩ : c.encrypt.output message.wire = wire ∧
      c.encrypt.feed message.wire = encrypt := by
    simpa using encoded.symm.trans encoded'
  have sameLength : (c.encrypt.output message.wire).length = message.wire.length :=
    Context.output_length _ _
  have nonempty : c.encrypt.output message.wire ≠ [] := by
    rw [← List.length_pos_iff, sameLength]
    exact List.length_pos_iff.mpr (message.wire_ne_nil wellFormed)
  have segmentation : Segmentation [.data (c.encrypt.output message.wire)]
      (c.encrypt.output message.wire) := by
    simpa using Segmentation.data _ nonempty .nil
  obtain ⟨decoded, peer', calls, held, -, -⟩ : message.ReadExactly
      { peer with sock := { peer.sock with inbound := [.data (c.encrypt.output message.wire)] } }
      [.data (c.encrypt.output message.wire)] [] :=
    readExactly_of_cuts wellFormed (awaits.withSocket _) segmentation rfl
      (message.cutBetweenFields_whole sameLength) fits
  refine ⟨c', _, _, done, posted, ?_, decoded, peer', calls, held⟩
  rw [sameLength, Context.feed_fed, List.drop_left]

/-- A message goes through exactly if its sizing pass, which takes every
length prefix from in front of the wire cursor, ends at the wire length, each
field is short enough for the cipher, and none overruns the peer's buffer. -/
theorem roundTrips_iff (wellFormed : ns.WellFormed) (holds : message.Holds image)
    (awaits : peer.Awaits ns c.encrypt) :
    message.RoundTrips image c peer ↔
      ns.sizingCursor image ns.size = some message.wire.length ∧ message.Encryptable ∧
        message.Fits :=
  ⟨of_roundTrips wellFormed holds awaits,
    fun ⟨sized, encryptable, fits⟩ =>
      roundTrips_of wellFormed holds awaits sized encryptable fits⟩

/-- Where no string is short in front of a variable field, a message of lengths
that the cipher and the peer's buffer take goes through. -/
theorem roundTrips_of_aligned (wellFormed : ns.WellFormed) (holds : message.Holds image)
    (awaits : peer.Awaits ns c.encrypt) (aligned : message.Aligned)
    (encryptable : message.Encryptable) (fits : message.Fits) :
    message.RoundTrips image c peer := by
  refine roundTrips_of wellFormed holds awaits ?_ encryptable fits
  rw [aligned.sizingCursor_eq wellFormed holds (le_refl _), message.wireOffset_size]

/-! ### A string in front of another one -/

/-- The reply with the address `a` to a file server request. -/
def shortAddressReply : Message fileSrvReply :=
  .ofContents [[1, 0], [5, 0, 0, 0], [1, 0], [97, 0]] rfl (by decide)

/-- Its image: the address has 24 units in memory. -/
def shortAddressImage : Bytes :=
  [1, 0, 5, 0, 0, 0, 1, 0, 97, 0] ++ List.replicate 46 0

theorem roundTrips_short_address :
    shortAddressReply.RoundTrips shortAddressImage (freshReader fileSrvReply [])
      (freshReader fileSrvReply []) := by
  have wellFormed : fileSrvReply.WellFormed := by decide
  have holds : shortAddressReply.Holds shortAddressImage := by decide
  exact (roundTrips_iff wellFormed holds (freshReader_awaits _ [])).mpr
    ⟨by decide, by decide, by decide⟩

/-- Two strings of up to two units each. -/
def twoStrings : NetStruct :=
  ⟨"two strings", netFieldStringUtf16 "first" 2 ++ netFieldStringUtf16 "second" 2⟩

/-- The first string is one unit short. -/
def shortFirst : Message twoStrings :=
  .ofContents [[1, 0], [65, 0], [2, 0], [66, 0, 67, 0]] rfl (by decide)

def shortFirstImage : Bytes :=
  [1, 0, 65, 0, 0, 0, 2, 0, 66, 0, 67, 0]

/-- The sizing pass takes the second prefix from the padding of the first
string. -/
theorem not_roundTrips_every_message :
    ¬ ∀ (ns : NetStruct) (_ : ns.WellFormed) (message : Message ns) (image : Bytes)
      (_ : message.Holds image) (c peer : ClientBase) (_ : peer.Awaits ns c.encrypt),
      message.RoundTrips image c peer := by
  intro claimed
  have wellFormed : twoStrings.WellFormed := by decide
  have holds : shortFirst.Holds shortFirstImage := by decide
  have roundTrips := claimed twoStrings wellFormed shortFirst shortFirstImage holds
    (freshReader twoStrings []) (freshReader twoStrings []) (freshReader_awaits _ _)
  have sized := (of_roundTrips wellFormed holds (freshReader_awaits _ []) roundTrips).1
  exact absurd sized (by decide)

end ThemeSrv
