import ThemeSrv.SelfDelimiting
import ThemeSrv.SessionRuns

/-!
# One reading for each stream

The length of a field is known from the fields in front of it, so no message
starts with another one of its descriptor, and no request with another one.
The bytes of a session can be cut into messages in one way only, and so can
what the daemon answers.
-/

namespace ThemeSrv

open AllocatedBlock ByteString Gatekeeper KeystreamCipher SelfDelimiting TransitionSystem

/-! ### Messages -/

section Messages

variable {ns : NetStruct} {first second : Message ns}

theorem Message.eq_of_contents (same : first.contents = second.contents) : first = second := by
  cases first
  cases second
  cases same
  rfl

/-- Both messages have the same length for a field behind the same fields. -/
theorem Message.length_eq_of_take (wellFormed : ns.WellFormed) {index : Nat}
    {content other : Bytes} (found : first.contents[index]? = some content)
    (foundOther : second.contents[index]? = some other)
    (same : first.contents.take index = second.contents.take index) :
    content.length = other.length := by
  obtain ⟨field, foundField⟩ := first.exists_field found
  cases kind : field.type.isVariable with
  | false =>
      rw [first.fixed index field content foundField found kind,
        second.fixed index field other foundField foundOther kind]
  | true =>
      obtain ⟨sizeField, sizeContent, count, prefixed, foundSize, -, announced, length, -⟩ :=
        first.exists_count wellFormed foundField found kind
      obtain ⟨sizeField', sizeContent', count', prefixed', foundSize', -, announced', length', -⟩ :=
        second.exists_count wellFormed foundField foundOther kind
      obtain rfl : sizeField = sizeField' :=
        Option.some.inj (prefixed.found.symm.trans prefixed'.found)
      obtain ⟨before, rfl, -⟩ := prefixed.exists_succ
      have inside : before < before + 1 := Nat.lt_succ_self before
      rw [Nat.add_sub_cancel] at foundSize foundSize'
      rw [← List.getElem?_take_of_lt inside, same, List.getElem?_take_of_lt inside,
        foundSize'] at foundSize
      cases foundSize
      cases announced.symm.trans announced'
      rw [length, length']

/-- No message starts with another one of its descriptor. -/
theorem Message.eq_of_wire_prefix (wellFormed : ns.WellFormed)
    (front : first.wire <+: second.wire) : first = second := by
  apply Message.eq_of_contents
  apply eq_of_flatten_prefix (first.covers.trans second.covers.symm) _ front
  intro index content other found foundOther same
  exact Message.length_eq_of_take wellFormed found foundOther same

theorem Message.contents_eq_of_wire_prefix {ns' : NetStruct} (same : ns = ns')
    (wellFormed : ns.WellFormed) {other : Message ns'} (front : first.wire <+: other.wire) :
    first.contents = other.contents := by
  subst same
  rw [Message.eq_of_wire_prefix wellFormed front]

/-! ### Encoded images -/

/-- The sizing pass reaches the last field of a packed message at its offset. -/
theorem NetStruct.VariableLast.sizeMessage_eq (variableLast : ns.VariableLast)
    (wellFormed : ns.WellFormed) (image : Bytes) {count : Nat} (inside : count < ns.size) :
    sizeMessage ns image count = .ok (ns.memOffset count) := by
  induction count with
  | zero => simp [sizeMessage]
  | succ count ih =>
      obtain ⟨field, found⟩ := ns.exists_field (show count < ns.size by omega)
      have next := NetStruct.memOffset_succ found
      have below := ns.memOffset_le_memTotal (count + 1)
      have total := wellFormed.memTotal_lt
      have plain : sizeT (ns.memOffset count + field.memSize) = ns.memOffset (count + 1) := by
        rw [← next]
        exact Nat.mod_eq_of_lt (by unfold sizeMod; omega)
      have sizes := wellFormed.calcFieldSz_of_fixed found (variableLast.fixed found inside)
        (some ⟨image, ns.memOffset count⟩)
      simp [sizeMessage, ih (by omega), sizes, assertD, plain, bind, Except.bind, pure, Except.pure]

/-- What is encoded of a packed message: the image up to the end of its last
field. -/
theorem encoded_front (wellFormed : ns.WellFormed) (variableLast : ns.VariableLast)
    {image wire : Bytes} {encrypt after : Context}
    (encoded : encodeMessage ns image encrypt = .ok (wire, after)) :
    ns.memOffset (ns.size - 1) + ns.wireSz image (ns.size - 1) ≤ image.length ∧
      wire = encrypt.output
        (image.take (ns.memOffset (ns.size - 1) + ns.wireSz image (ns.size - 1))) ∧
      after = encrypt.feed
        (image.take (ns.memOffset (ns.size - 1) + ns.wireSz image (ns.size - 1))) := by
  obtain ⟨last, lastField⟩ : ∃ last, ns.size = last + 1 :=
    Nat.exists_eq_succ_of_ne_zero wellFormed.nonempty.ne'
  have inner : last < ns.size := by omega
  obtain ⟨field, found⟩ := ns.exists_field inner
  obtain ⟨wiresz, result, sized, bound, done, rfl, rfl⟩ := stages_of_encodeMessage encoded
  have allocated : (List.replicate wiresz (0 : UInt8)).length < maxObject := by
    rw [List.length_replicate]
    omega
  obtain ⟨inImage, -, -, front, fed, -⟩ :=
    encryptFields_packed wellFormed variableLast allocated (le_refl _) sized done
  rw [lastField] at sized done
  obtain ⟨cursor, sz, sizing, sizes, total⟩ := of_sizeMessage_succ sized
  obtain ⟨before, sz', plain, buf, prior, sizes', short, loaded, -, -⟩ := of_encryptFields_succ done
  obtain ⟨offsetInside, -, -, -, -, position⟩ :=
    encryptFields_packed wellFormed variableLast allocated inner.le sizing prior
  rw [variableLast.sizeMessage_eq wellFormed image inner] at sizing
  cases sizing
  rw [position inner] at sizes' loaded
  have known := wellFormed.calcFieldSz_at found offsetInside
  rw [known] at sizes sizes'
  cases sizes
  cases sizes'
  have room := load_inside loaded
  have below := ns.memOffset_le_memTotal last
  have memory := wellFormed.memTotal_lt
  have plainTotal : wiresz = ns.memOffset last + ns.wireSz image last := by
    rw [total]
    exact Nat.mod_eq_of_lt (by unfold sizeMod; unfold intMax at short; omega)
  rw [lastField, Nat.add_sub_cancel, ← plainTotal]
  refine ⟨inImage, ?_, fed⟩
  rw [front, List.drop_of_length_le (by rw [List.length_replicate]), List.append_nil]

/-- Whatever two images hold, the bytes that are encoded of one of them start
with those of the other only if they are the same bytes, from the same front of
the image. -/
theorem encodings_apart (wellFormed : ns.WellFormed) (variableLast : ns.VariableLast)
    {image image' : Bytes} {encrypt after after' : Context} {wire wire' : Bytes}
    (encoded : encodeMessage ns image encrypt = .ok (wire, after))
    (encoded' : encodeMessage ns image' encrypt = .ok (wire', after'))
    (front : wire <+: wire') :
    wire = wire' ∧ after = after' ∧ image.take wire.length = image'.take wire.length := by
  obtain ⟨inside, rfl, rfl⟩ := encoded_front wellFormed variableLast encoded
  obtain ⟨inside', rfl, rfl⟩ := encoded_front wellFormed variableLast encoded'
  have plain := Context.prefix_of_output front
  have shared : image.take (ns.memOffset (ns.size - 1)) =
      image'.take (ns.memOffset (ns.size - 1)) := by
    obtain ⟨rest, whole⟩ := plain
    have cut := congrArg (List.take (ns.memOffset (ns.size - 1))) whole
    rw [List.take_append_of_le_length (by rw [List.length_take]; omega), List.take_take,
      List.take_take, min_eq_left (Nat.le_add_right _ _), min_eq_left (Nat.le_add_right _ _)] at cut
    exact cut
  have sameSize := wellFormed.wireSz_congr shared (by omega) (by omega)
  rw [sameSize] at plain inside ⊢
  have same := plain.eq_of_length (by rw [List.length_take, List.length_take]; omega)
  rw [same]
  refine ⟨rfl, rfl, ?_⟩
  rw [Context.output_length, List.length_take, min_eq_left inside', same]

end Messages

/-- The image of a ping reply with a payload of two bytes and a byte behind it. -/
def twoBytePing (behind : UInt8) : Bytes :=
  (pingBytes ReplyId.pingReply.code 1 2 [5, 6]).flatten ++ [behind]

theorem encodings_apart_ping : ∃ wire after wire' after',
    encodeMessage pingReply (twoBytePing 7) (.keyed fun _ => 9) = .ok (wire, after) ∧
      encodeMessage pingReply (twoBytePing 8) (.keyed fun _ => 9) = .ok (wire', after') ∧
      wire.length = 16 ∧ wire = wire' ∧ after = after' ∧
      (twoBytePing 7).take wire.length = (twoBytePing 8).take wire.length := by
  obtain ⟨wire, after, encoded, length⟩ : ∃ wire after,
      encodeMessage pingReply (twoBytePing 7) (.keyed fun _ => 9) = .ok (wire, after) ∧
        wire.length = 16 := ⟨_, _, rfl, rfl⟩
  obtain ⟨wire', after', encoded', front⟩ : ∃ wire' after',
      encodeMessage pingReply (twoBytePing 8) (.keyed fun _ => 9) = .ok (wire', after') ∧
        wire <+: wire' := by
    cases encoded
    exact ⟨_, _, rfl, List.prefix_refl _⟩
  exact ⟨wire, after, wire', after', encoded, encoded', length,
    encodings_apart (show pingReply.WellFormed by decide) (by decide) encoded encoded' front⟩

/-! ### Requests -/

theorem leBytes_toNat_inj {first second : UInt32}
    (same : leBytes 4 first.toNat = leBytes 4 second.toNat) : first = second := by
  have values := congrArg leValue same
  rw [leValue_leBytes_of_lt first.toNat_lt, leValue_leBytes_of_lt second.toNat_lt] at values
  exact UInt32.toNat_inj.mp values

namespace Request

/-- The transaction that a request names. -/
def transId : Request → UInt32
  | .ping _ transId _ _ => transId
  | .fileSrv transId _ => transId
  | .authSrv transId => transId

variable {first second : Request}

theorem bytes_ne_nil (request : Request) : request.bytes ≠ [] :=
  List.length_pos_iff.mp request.bytes_pos

theorem id_eq_of_prefix (front : first.bytes <+: second.bytes) : first.id = second.id :=
  Option.some.inj ((In.type front).symm.trans (In.type (List.prefix_refl second.bytes)))

/-- No request starts with another one. -/
theorem eq_of_bytes_prefix (front : first.bytes <+: second.bytes) : first = second := by
  have sameId := id_eq_of_prefix front
  rw [← message_wire, ← message_wire] at front
  have same := Message.contents_eq_of_wire_prefix (congrArg RequestId.struct sameId)
    (requestStruct_wellFormed first.id) front
  rw [message_contents, message_contents] at same
  cases first with
  | ping pingTime transId payload bounded =>
      cases second with
      | ping pingTime' transId' payload' bounded' =>
          simp only [contents, pingBytes, List.cons.injEq] at same
          obtain ⟨-, sameTime, sameTrans, -, rfl, -⟩ := same
          rw [leBytes_toNat_inj sameTime, leBytes_toNat_inj sameTrans]
      | fileSrv | authSrv => cases sameId
  | fileSrv transId isPatcher =>
      cases second with
      | fileSrv transId' isPatcher' =>
          simp only [contents, List.cons.injEq] at same
          obtain ⟨-, sameTrans, ⟨rfl, -⟩, -⟩ := same
          rw [leBytes_toNat_inj sameTrans]
      | ping | authSrv => cases sameId
  | authSrv transId =>
      cases second with
      | authSrv transId' =>
          simp only [contents, List.cons.injEq] at same
          rw [leBytes_toNat_inj same.2.1]
      | ping | fileSrv => cases sameId

end Request

/-- The requests are read off their bytes. -/
theorem tells_requests : Tells Request.bytes id :=
  tells_of_eq fun _ _ front => Request.eq_of_bytes_prefix front

theorem requests_of_bytes {first second : List Request}
    (front : requestBytes first <+: requestBytes second) : first <+: second := by
  have same := tells_requests.told_in_order Request.bytes_ne_nil front
  rwa [List.map_id, List.map_id] at same

/-! ### Answers -/

namespace Request

variable {server : Server} {first second : Request}

end Request

/-! ### Sessions -/

/-- The bytes of a session say which connection header, which seed and which
requests they stand for: those of another session start with them only if it
goes on where this one stops. -/
theorem sessions_apart (server : Server) {first second : Session}
    {srvSeed key srvSeed' key' : Bytes}
    (derived : server.derive 0 first.yData = some (srvSeed, key))
    (derived' : server.derive 0 second.yData = some (srvSeed', key'))
    (front : first.stream (server.rc4 key) <+: second.stream (server.rc4 key')) :
    first.hello = second.hello ∧ first.yData = second.yData ∧ key = key' ∧
      first.requests <+: second.requests := by
  obtain ⟨rest, whole⟩ := front
  rw [Session.stream, Session.stream, Session.opening, Session.opening] at whole
  simp only [List.append_assoc] at whole
  have hello : first.hello = second.hello := by
    have one := List.prefix_append first.hello.wire (handshakeMessage.wire ++ (first.yData ++
      ((Context.keyed (server.rc4 key)).output (first.requests.flatMap Request.bytes) ++ rest)))
    rw [whole] at one
    rcases List.prefix_or_prefix_of_prefix one (List.prefix_append _ _) with below | above
    · exact Message.eq_of_wire_prefix (by decide) below
    · exact (Message.eq_of_wire_prefix (by decide) above).symm
  rw [hello, List.append_cancel_left_eq, List.append_cancel_left_eq] at whole
  obtain ⟨seed, behind⟩ := List.append_inj whole (first.whole.trans second.whole.symm)
  rw [seed, derived'] at derived
  cases derived
  exact ⟨hello, seed, rfl, requests_of_bytes (Context.prefix_of_output ⟨rest, behind⟩)⟩

/-- A client that stops at the first of two requests. -/
def stoppedSession : Session :=
  { shortSession with requests := [.fileSrv 5 1] }

theorem stoppedSession_stream (keystream : Nat → UInt8) :
    stoppedSession.stream keystream <+: shortSession.stream keystream := by
  refine (List.prefix_append_right_inj shortSession.opening).mpr ?_
  have split : shortSession.requests.flatMap Request.bytes =
      stoppedSession.requests.flatMap Request.bytes ++
        shortSession.requests.tail.flatMap Request.bytes := rfl
  rw [split, Context.output_append]
  exact List.prefix_append _ _

theorem sessions_apart_short : stoppedSession.requests <+: shortSession.requests := by
  obtain ⟨srvSeed, key, derived⟩ : ∃ srvSeed key,
      plainServer.derive 0 shortSession.yData = some (srvSeed, key) := ⟨_, _, rfl⟩
  have seed : stoppedSession.yData = shortSession.yData := rfl
  have stopped := derived
  rw [← seed] at stopped
  exact (sessions_apart plainServer stopped derived (stoppedSession_stream _)).2.2.2

end ThemeSrv
