import ThemeSrv.MessageContents

/-!
# How a message is encoded

`enqueue_write` walks the message twice.  The encrypting pass keeps a memory
cursor and a wire cursor and encrypts the fields of the message.  The sizing
pass keeps the wire cursor only and looks length prefixes up in front of it;
it finds them there as long as no string is shorter than its capacity.
-/

namespace ThemeSrv

open AllocatedBlock ByteString ConcatenatedParts KeystreamCipher

variable {ns : NetStruct}

/-! ### The sizing pass -/

/-- Size of a field when its length prefix is taken from the bytes of the
image in front of a cursor. -/
def NetStruct.sizeInFrontOf (ns : NetStruct) (image : Bytes) (index cursor : Nat) : Option Nat :=
  match ns.fields[index]? with
  | none => none
  | some field =>
      if field.type.isVariable then
        match ns.previous? index with
        | none => none
        | some sizeField =>
            if cursor < sizeField.elementsz then
              none
            else
              (load image (cursor - sizeField.elementsz) sizeField.elementsz).map fun bytes =>
                sizeT (field.elementsz *
                  countOrMax (announcedCount sizeField field (leValue bytes)))
      else
        some field.memSize

/-- The cursor behind the first `count` fields when every prefix is taken from
in front of the cursor. -/
def NetStruct.sizingCursor (ns : NetStruct) (image : Bytes) : Nat → Option Nat
  | 0 => some 0
  | count + 1 =>
      (ns.sizingCursor image count).bind fun cursor =>
        (ns.sizeInFrontOf image count cursor).map fun size => sizeT (cursor + size)

theorem NetStruct.WellFormed.calcFieldSz_cursor (wellFormed : ns.WellFormed) (image : Bytes)
    {index : Nat} (cursor : Nat) (inside : index < ns.size) :
    (∃ alloc wire, ns.sizeInFrontOf image index cursor = some wire ∧
      calcFieldSz ns index (some ⟨image, cursor⟩) = .ok ⟨true, alloc, wire⟩) ∨
    (ns.sizeInFrontOf image index cursor = none ∧
      ∃ stop, calcFieldSz ns index (some ⟨image, cursor⟩) = .error stop) := by
  obtain ⟨field, found⟩ := ns.exists_field inside
  cases kind : field.type.isVariable with
  | false =>
      refine Or.inl ⟨field.memSize, field.memSize, ?_, wellFormed.calcFieldSz_of_fixed found kind _⟩
      simp [sizeInFrontOf, found, kind]
  | true =>
      obtain ⟨sizeField, prefixed⟩ := wellFormed.prefixed found kind
      have lookup : ns.sizeInFrontOf image index cursor =
          if cursor < sizeField.elementsz then none
          else (load image (cursor - sizeField.elementsz) sizeField.elementsz).map fun bytes =>
            sizeT (field.elementsz *
              countOrMax (announcedCount sizeField field (leValue bytes))) := by
        simp [sizeInFrontOf, found, kind, prefixed.found]
      have outside (missing : cursor < sizeField.elementsz ∨
          load image (cursor - sizeField.elementsz) sizeField.elementsz = none) :
          calcFieldSz ns index (some ⟨image, cursor⟩) = .error .load := by
        simp only [calcFieldSz, found, kind, if_true, prefixed.assertD_last, prefixed.found,
          extractElementcount_outside prefixed missing, bind, Except.bind]
      by_cases short : cursor < sizeField.elementsz
      · exact Or.inr ⟨by rw [lookup, if_pos short], .load, outside (Or.inl short)⟩
      · rw [lookup, if_neg short]
        cases loaded : load image (cursor - sizeField.elementsz) sizeField.elementsz with
        | some bytes =>
            exact Or.inl ⟨_, _, rfl, wellFormed.calcFieldSz_of_variable found kind prefixed
              (Nat.le_of_not_lt short) loaded⟩
        | none => exact Or.inr ⟨rfl, .load, outside (Or.inr loaded)⟩

/-- The sizing loop computes the cursor. -/
theorem NetStruct.WellFormed.sizeMessage_iff (wellFormed : ns.WellFormed) {image : Bytes}
    {count size : Nat} (le : count ≤ ns.size) :
    sizeMessage ns image count = .ok size ↔ ns.sizingCursor image count = some size := by
  induction count generalizing size with
  | zero => simp [sizeMessage, sizingCursor]
  | succ count ih =>
      rw [sizeMessage, sizingCursor]
      cases before : ns.sizingCursor image count with
      | none =>
          have failed (value : Nat) : sizeMessage ns image count ≠ .ok value := by
            rw [ne_eq, ih (by omega), before]
            simp
          cases result : sizeMessage ns image count with
          | error stop => simp [bind, Except.bind]
          | ok value => exact absurd result (failed value)
      | some cursor =>
          have done : sizeMessage ns image count = .ok cursor := (ih (by omega)).mpr before
          rcases wellFormed.calcFieldSz_cursor image cursor (show count < ns.size by omega) with
            ⟨alloc, wire, found, sizes⟩ | ⟨missing, stop, sizes⟩
          · simp [done, sizes, found, assertD, bind, Except.bind, pure, Except.pure]
          · simp [done, sizes, missing, bind, Except.bind]

/-! ### The encrypting pass -/

namespace Message

variable {message : Message ns} {image : Bytes}

theorem Holds.heldUpTo (holds : message.Holds image) (wellFormed : ns.WellFormed) :
    message.HeldUpTo ns.size image :=
  (holds_iff wellFormed).mp holds

/-- No wire encoding is longer than the descriptor's extent. -/
theorem wireOffset_le_extent (message : Message ns) (wellFormed : ns.WellFormed) {count : Nat}
    (le : count ≤ ns.size) :
    message.wireOffset count ≤
      ((ns.fields.take count).map fun field => field.memSize + field.elementsz * kMaxBufCount).sum := by
  induction count with
  | zero => simp [wireOffset]
  | succ count ih =>
      obtain ⟨field, found⟩ := ns.exists_field (show count < ns.size by omega)
      obtain ⟨content, foundContent⟩ := message.exists_content (show count < ns.size by omega)
      have limit := message.content_le_limit wellFormed found foundContent
      have prior := ih (by omega)
      have larger : max field.memSize (field.elementsz * kMaxBufCount) ≤
          field.memSize + field.elementsz * kMaxBufCount := by omega
      rw [message.wireOffset_succ foundContent, List.take_add_one, found, Option.toList_some,
        List.map_append, List.sum_append]
      simp only [List.map_cons, List.map_nil, List.sum_cons, List.sum_nil]
      omega

theorem wire_length_lt (message : Message ns) (wellFormed : ns.WellFormed) :
    message.wire.length < maxObject := by
  have below := message.wireOffset_le_extent wellFormed (le_refl ns.size)
  have addressable := wellFormed.addressable
  rw [message.wireOffset_size, NetStruct.size, List.take_length] at below
  change _ ≤ ns.extent at below
  unfold maxObject
  omega

/-- The first `count` fields are short enough for one call of the cipher
each. -/
def EncryptableUpTo (message : Message ns) (count : Nat) : Prop :=
  ∀ (index : Nat) (content : Bytes), index < count → message.contents[index]? = some content →
    content.length ≤ intMax

def Encryptable (message : Message ns) : Prop :=
  ∀ content ∈ message.contents, content.length ≤ intMax

instance (message : Message ns) : Decidable message.Encryptable :=
  inferInstanceAs (Decidable (∀ content ∈ message.contents, content.length ≤ intMax))

theorem encryptable_iff : message.Encryptable ↔ message.EncryptableUpTo ns.size := by
  constructor
  · exact fun encryptable index content _ found => encryptable content (List.mem_of_getElem? found)
  · intro encryptable content member
    obtain ⟨index, found⟩ := List.mem_iff_getElem?.mp member
    obtain ⟨field, foundField⟩ := message.exists_field found
    exact encryptable index content (ns.lt_size_of_found foundField) found

/-- The message up to a field. -/
def front (message : Message ns) (count : Nat) : Bytes :=
  message.wire.take (message.wireOffset count)

@[simp]
theorem front_zero (message : Message ns) : message.front 0 = [] := by
  simp [front, wireOffset]

theorem front_succ {index : Nat} {content : Bytes}
    (found : message.contents[index]? = some content) :
    message.front (index + 1) = message.front index ++ content := by
  rw [front, front, wire, wireOffset, wireOffset, flatten_take, flatten_take, List.take_add_one,
    found, Option.toList_some, List.flatten_append]
  simp

theorem front_length (message : Message ns) (count : Nat) :
    (message.front count).length = message.wireOffset count := by
  rw [front, List.length_take]
  exact min_eq_left (boundary_le _ _)

theorem front_size (message : Message ns) : message.front ns.size = message.wire := by
  rw [front, message.wireOffset_size, List.take_length]

end Message

theorem NetStruct.WellFormed.sizeInFrontOf_memOffset (wellFormed : ns.WellFormed) {image : Bytes}
    {index : Nat} (within : index < ns.size) (inside : ns.memOffset index ≤ image.length) :
    ns.sizeInFrontOf image index (ns.memOffset index) = some (ns.wireSz image index) := by
  obtain ⟨field, found⟩ := ns.exists_field within
  cases kind : field.type.isVariable with
  | false => simp [sizeInFrontOf, found, kind, NetStruct.wireSz_of_fixed found kind]
  | true =>
      obtain ⟨sizeField, prefixed⟩ := wellFormed.prefixed found kind
      obtain ⟨bytes, loaded⟩ := NetStruct.WellFormed.exists_load_prefix prefixed inside
      have offset := prefixed.memOffset_eq
      have behind : ¬ ns.memOffset index < sizeField.elementsz := by omega
      rw [NetStruct.wireSz_of_variable found kind,
        NetStruct.WellFormed.announced_eq found prefixed loaded]
      simp [sizeInFrontOf, found, kind, prefixed.found, behind, loaded]

/-- Where the encrypting pass stands behind the first `count` fields. -/
def encodedUpTo (message : Message ns) (buf : Bytes) (encrypt : Context) (count : Nat) :
    Encoding where
  memPos := ns.memOffset count
  wirePos := message.wireOffset count
  buf := encrypt.output (message.front count) ++ buf.drop (message.wireOffset count)
  encrypt := encrypt.feed (message.front count)

section EncryptFields

variable {message : Message ns} {image buf : Bytes} {encrypt : Context} {count : Nat}

/-- One field more: its size is checked, it is stored behind the fields in
front of it. -/
theorem encryptFields_succ (wellFormed : ns.WellFormed) (held : message.HeldUpTo ns.size image)
    {content : Bytes} (found : message.contents[count]? = some content)
    (room : message.wireOffset count ≤ buf.length)
    (before : encryptFields ns image ⟨0, 0, buf, encrypt⟩ count =
      .ok (encodedUpTo message buf encrypt count)) :
    encryptFields ns image ⟨0, 0, buf, encrypt⟩ (count + 1) =
      if content.length ≤ intMax then
        if message.wireOffset (count + 1) ≤ buf.length then
          .ok (encodedUpTo message buf encrypt (count + 1))
        else
          .error .store
      else
        .error .assertion := by
  obtain ⟨field, foundField⟩ := message.exists_field found
  have inside := ns.lt_size_of_found foundField
  have loaded := held count content inside found
  have size := held.wireSz_eq wellFormed found inside.le
  have sizes := wellFormed.calcFieldSz_at foundField
    ((Nat.le_add_right _ _).trans (load_inside loaded))
  have nextOffset := NetStruct.memOffset_succ foundField
  have nextWire := message.wireOffset_succ found
  rw [size] at sizes
  rw [encryptFields, before]
  simp only [encodedUpTo, bind, Except.bind, sizes, assertD, if_true, decide_eq_true_eq]
  by_cases short : content.length ≤ intMax
  · simp only [if_pos short, loaded]
    have place : (encrypt.output (message.front count)).length = message.wireOffset count := by
      rw [Context.output_length, message.front_length]
    have back : (buf.drop (message.wireOffset count)).length =
        buf.length - message.wireOffset count := List.length_drop
    by_cases fits : message.wireOffset (count + 1) ≤ buf.length
    · have stored : store (encrypt.output (message.front count) ++
          buf.drop (message.wireOffset count)) (encrypt.output (message.front count)).length
          ((encrypt.feed (message.front count)).output content) = _ :=
        store_behind (by rw [Context.output_length]; omega)
      rw [place, ← Context.output_append, ← message.front_succ found, Context.output_length,
        List.drop_drop, ← nextWire] at stored
      rw [stored, if_pos fits, ← nextOffset, ← nextWire, ← Context.feed_append,
        ← message.front_succ found]
      rfl
    · have outside : store (encrypt.output (message.front count) ++
          buf.drop (message.wireOffset count)) (message.wireOffset count)
          ((encrypt.feed (message.front count)).output content) = none :=
        store_of_outside (by rw [← List.length_pos_iff, Context.output_length]; omega)
          (by rw [List.length_append, place, back, Context.output_length]; omega)
      rw [outside, if_neg fits]
      rfl
  · simp only [if_neg short]

theorem encryptFields_zero (message : Message ns) (image buf : Bytes) (encrypt : Context) :
    encryptFields ns image ⟨0, 0, buf, encrypt⟩ 0 = .ok (encodedUpTo message buf encrypt 0) := by
  simp [encryptFields, encodedUpTo, Message.wireOffset]

theorem encryptFields_eq (wellFormed : ns.WellFormed) (held : message.HeldUpTo ns.size image)
    (encryptable : message.EncryptableUpTo count) (le : count ≤ ns.size)
    (room : message.wireOffset count ≤ buf.length) :
    encryptFields ns image ⟨0, 0, buf, encrypt⟩ count =
      .ok (encodedUpTo message buf encrypt count) := by
  induction count with
  | zero => exact encryptFields_zero message image buf encrypt
  | succ count ih =>
      obtain ⟨content, found⟩ := message.exists_content (show count < ns.size by omega)
      have nextWire := message.wireOffset_succ found
      have before := ih (fun index content lt => encryptable index content (by omega)) (by omega)
        (by omega)
      rw [encryptFields_succ wellFormed held found (by omega) before,
        if_pos (encryptable count content (Nat.lt_succ_self count) found), if_pos room]

/-- The encrypting pass succeeds only if the buffer has room for the wire. -/
theorem of_encryptFields (wellFormed : ns.WellFormed) (held : message.HeldUpTo ns.size image)
    (le : count ≤ ns.size) {result : Encoding}
    (done : encryptFields ns image ⟨0, 0, buf, encrypt⟩ count = .ok result) :
    message.EncryptableUpTo count ∧ message.wireOffset count ≤ buf.length ∧
      result = encodedUpTo message buf encrypt count := by
  induction count generalizing result with
  | zero =>
      rw [encryptFields_zero message] at done
      cases done
      exact ⟨fun index content lt => by omega, by simp [Message.wireOffset], rfl⟩
  | succ count ih =>
      obtain ⟨content, found⟩ := message.exists_content (show count < ns.size by omega)
      cases prior : encryptFields ns image ⟨0, 0, buf, encrypt⟩ count with
      | error stop =>
          rw [encryptFields, prior] at done
          cases done
      | ok before =>
          obtain ⟨encryptable, room, rfl⟩ := ih (by omega) prior
          rw [encryptFields_succ wellFormed held found room prior] at done
          split_ifs at done with short fits
          cases done
          refine ⟨fun index other lt foundOther => ?_, fits, rfl⟩
          rcases Nat.eq_or_lt_of_le (Nat.le_of_lt_succ lt) with rfl | earlier
          · cases found.symm.trans foundOther
            exact short
          · exact encryptable index other earlier foundOther

end EncryptFields

/-! ### The whole encoding -/

section Encode

variable {message : Message ns} {image : Bytes} {encrypt : Context}

/-- The encoding of a message whose sizing pass finds the wire length. -/
theorem encodeMessage_eq (wellFormed : ns.WellFormed) (holds : message.Holds image)
    (encryptable : message.Encryptable)
    (sized : ns.sizingCursor image ns.size = some message.wire.length) :
    encodeMessage ns image encrypt =
      .ok (encrypt.output message.wire, encrypt.feed message.wire) := by
  have held := holds.heldUpTo wellFormed
  have bound := message.wire_length_lt wellFormed
  have sizing := (wellFormed.sizeMessage_iff (le_refl ns.size)).mpr sized
  have room : message.wireOffset ns.size ≤ (List.replicate message.wire.length (0 : UInt8)).length := by
    rw [message.wireOffset_size, List.length_replicate]
  have encrypted : encryptFields ns image
      ⟨0, 0, List.replicate message.wire.length 0, encrypt⟩ ns.size = _ :=
    encryptFields_eq wellFormed held (Message.encryptable_iff.mp encryptable) (le_refl ns.size) room
  rw [encodeMessage, sizing]
  simp only [allocBuf, if_true, if_neg (Nat.not_le.mpr bound), bind, Except.bind, encrypted, pure,
    Except.pure, encodedUpTo, message.front_size, message.wireOffset_size]
  simp

/-- The encoder sizes the message, and then encrypts its fields into a buffer
of that size. -/
theorem stages_of_encodeMessage {wire : Bytes} {encrypt' : Context}
    (encoded : encodeMessage ns image encrypt = .ok (wire, encrypt')) :
    ∃ wiresz result, sizeMessage ns image ns.size = .ok wiresz ∧ wiresz < maxObject ∧
      encryptFields ns image ⟨0, 0, List.replicate wiresz 0, encrypt⟩ ns.size = .ok result ∧
      wire = result.buf ∧ encrypt' = result.encrypt := by
  rw [encodeMessage] at encoded
  cases sized : sizeMessage ns image ns.size with
  | error stop =>
      rw [sized] at encoded
      cases encoded
  | ok wiresz =>
      simp only [sized, bind, Except.bind, allocBuf, if_true] at encoded
      split_ifs at encoded with huge
      simp only at encoded
      cases done : encryptFields ns image ⟨0, 0, List.replicate wiresz 0, encrypt⟩ ns.size with
      | error stop =>
          rw [done] at encoded
          cases encoded
      | ok result =>
          rw [done] at encoded
          cases encoded
          exact ⟨wiresz, result, rfl, not_le.mp huge, done, rfl, rfl⟩

/-- A message that was encoded at all was encrypted field by field into a
buffer of the size the sizing pass found. -/
theorem of_encodeMessage (wellFormed : ns.WellFormed) (holds : message.Holds image) {wire : Bytes}
    {encrypt' : Context} (encoded : encodeMessage ns image encrypt = .ok (wire, encrypt')) :
    message.Encryptable ∧ ns.sizingCursor image ns.size = some wire.length ∧
      encrypt' = encrypt.feed message.wire := by
  have held := holds.heldUpTo wellFormed
  obtain ⟨size, result, sizing, -, encrypted, rfl, rfl⟩ := stages_of_encodeMessage encoded
  obtain ⟨encryptable, room, rfl⟩ := of_encryptFields wellFormed held (le_refl _) encrypted
  refine ⟨Message.encryptable_iff.mpr encryptable, ?_, ?_⟩
  · rw [(wellFormed.sizeMessage_iff (le_refl _)).mp sizing]
    simp only [encodedUpTo, List.length_append, Context.output_length, message.front_length,
      List.length_drop]
    rw [List.length_replicate] at room ⊢
    congr 1
    omega
  · rw [encodedUpTo, message.front_size]

end Encode

/-! ### When the sizing pass is right -/

/-- In front of a variable field memory and wire agree: no string in front of
it is shorter than its capacity. -/
def Message.Aligned (message : Message ns) : Prop :=
  ∀ (index : Nat) (field : NetField), ns.fields[index]? = some field →
    field.type.isVariable = true → message.wireOffset index = ns.memOffset index

theorem Message.Aligned.sizingCursor_eq {message : Message ns} (aligned : message.Aligned)
    (wellFormed : ns.WellFormed) {image : Bytes} (holds : message.Holds image) {count : Nat}
    (le : count ≤ ns.size) :
    ns.sizingCursor image count = some (message.wireOffset count) := by
  induction count with
  | zero => simp [NetStruct.sizingCursor, Message.wireOffset]
  | succ count ih =>
      obtain ⟨field, found⟩ := ns.exists_field (show count < ns.size by omega)
      obtain ⟨content, foundContent⟩ := message.exists_content (show count < ns.size by omega)
      have held := holds.heldUpTo wellFormed
      have inside := load_inside (held count content (by omega) foundContent)
      have size := held.wireSz_eq wellFormed foundContent (by omega)
      have lookup : ns.sizeInFrontOf image count (message.wireOffset count) =
          some content.length := by
        cases kind : field.type.isVariable with
        | true =>
            rw [aligned count field found kind, ← size]
            exact wellFormed.sizeInFrontOf_memOffset (by omega) (by omega)
        | false =>
            rw [message.fixed count field content found foundContent kind]
            simp [NetStruct.sizeInFrontOf, found, kind]
      have bound := message.wire_length_lt wellFormed
      have below : message.wireOffset (count + 1) ≤ message.wire.length := boundary_le _ _
      have nextWire := message.wireOffset_succ foundContent
      have plain : sizeT (message.wireOffset count + content.length) =
          message.wireOffset (count + 1) := by
        unfold maxObject at bound
        rw [← nextWire]
        exact Nat.mod_eq_of_lt (by unfold sizeMod; omega)
      simp [NetStruct.sizingCursor, ih (by omega), lookup, plain]

/-! ### Packed images -/

/-- Only the last field may be variable, as in every message of the daemon. -/
def NetStruct.VariableLast (ns : NetStruct) : Prop :=
  ∀ field ∈ ns.fields.dropLast, field.type.isVariable = false

instance (ns : NetStruct) : Decidable ns.VariableLast :=
  inferInstanceAs (Decidable (∀ field ∈ ns.fields.dropLast, field.type.isVariable = false))

theorem NetStruct.VariableLast.fixed (variableLast : ns.VariableLast) {index : Nat}
    {field : NetField} (found : ns.fields[index]? = some field) (inner : index + 1 < ns.size) :
    field.type.isVariable = false := by
  apply variableLast
  apply List.mem_of_getElem? (i := index)
  rw [List.getElem?_dropLast, if_pos (by unfold NetStruct.size at inner; omega), found]

theorem of_sizeMessage_succ {image : Bytes} {count wiresz : Nat}
    (sized : sizeMessage ns image (count + 1) = .ok wiresz) :
    ∃ cursor sz, sizeMessage ns image count = .ok cursor ∧
      calcFieldSz ns count (some ⟨image, cursor⟩) = .ok sz ∧ wiresz = sizeT (cursor + sz.wire) := by
  rw [sizeMessage] at sized
  cases before : sizeMessage ns image count with
  | error stop =>
      rw [before] at sized
      cases sized
  | ok cursor =>
      cases sizes : calcFieldSz ns count (some ⟨image, cursor⟩) with
      | error stop =>
          simp only [before, bind, Except.bind, sizes] at sized
          cases sized
      | ok sz =>
          cases known : sz.known with
          | false => simp [before, bind, Except.bind, sizes, known, assertD] at sized
          | true =>
              refine ⟨cursor, sz, rfl, sizes, ?_⟩
              simpa [before, bind, Except.bind, sizes, known, assertD, pure, Except.pure,
                eq_comm] using sized

theorem of_encryptFields_succ {image : Bytes} {start result : Encoding} {count : Nat}
    (done : encryptFields ns image start (count + 1) = .ok result) :
    ∃ before sz plain buf, encryptFields ns image start count = .ok before ∧
      calcFieldSz ns count (some ⟨image, before.memPos⟩) = .ok sz ∧ sz.wire ≤ intMax ∧
      load image before.memPos sz.wire = some plain ∧
      store before.buf before.wirePos (before.encrypt.output plain) = some buf ∧
      result = ⟨before.memPos + sz.alloc, before.wirePos + sz.wire, buf,
        before.encrypt.feed plain⟩ := by
  rw [encryptFields] at done
  cases prior : encryptFields ns image start count with
  | error stop =>
      rw [prior] at done
      cases done
  | ok before =>
      simp only [prior, bind, Except.bind] at done
      cases sizes : calcFieldSz ns count (some ⟨image, before.memPos⟩) with
      | error stop =>
          simp only [sizes] at done
          cases done
      | ok sz =>
          simp only [sizes, assertD, decide_eq_true_eq] at done
          by_cases known : sz.known = true
          case neg => simp [known] at done
          by_cases short : sz.wire ≤ intMax
          case neg => simp [known, short] at done
          simp only [if_pos known, if_pos short] at done
          cases loaded : load image before.memPos sz.wire with
          | none => simp [loaded, throw, throwThe, MonadExceptOf.throw] at done
          | some plain =>
              simp only [loaded] at done
              cases stored : store before.buf before.wirePos (before.encrypt.output plain) with
              | none => simp [stored, throw, throwThe, MonadExceptOf.throw] at done
              | some buf =>
                  refine ⟨before, sz, plain, buf, rfl, sizes, short, loaded, stored, ?_⟩
                  simpa [stored, pure, Except.pure, eq_comm] using done

/-- The two passes walk such a message together: whatever the image, what is
encrypted is a front part of it. -/
theorem encryptFields_packed (wellFormed : ns.WellFormed) (variableLast : ns.VariableLast)
    {image buf : Bytes} {encrypt : Context} (allocated : buf.length < maxObject) {count : Nat}
    (le : count ≤ ns.size) {wiresz : Nat} {result : Encoding}
    (sized : sizeMessage ns image count = .ok wiresz)
    (done : encryptFields ns image ⟨0, 0, buf, encrypt⟩ count = .ok result) :
    wiresz ≤ image.length ∧ wiresz ≤ buf.length ∧ result.wirePos = wiresz ∧
      result.buf = encrypt.output (image.take wiresz) ++ buf.drop wiresz ∧
      result.encrypt = encrypt.feed (image.take wiresz) ∧
      (count < ns.size → result.memPos = wiresz) := by
  induction count generalizing wiresz result with
  | zero =>
      cases sized
      cases done
      simp
  | succ count ih =>
      obtain ⟨cursor, sz, sizing, sizes, rfl⟩ := of_sizeMessage_succ sized
      obtain ⟨before, sz', plain, stored, prior, sizes', -, loaded, written, rfl⟩ :=
        of_encryptFields_succ done
      obtain ⟨inImage, inBuf, wirePos, front, fed, memPos⟩ := ih (by omega) sizing prior
      obtain ⟨field, found⟩ := ns.exists_field (show count < ns.size by omega)
      have samePos := memPos (by omega)
      rw [samePos, sizes] at sizes'
      cases sizes'
      rw [samePos] at loaded
      have imageRoom := load_inside loaded
      have plainLength := load_length loaded
      rw [load_eq_some imageRoom] at loaded
      cases loaded
      have frontLength : (encrypt.output (image.take cursor)).length = cursor := by
        rw [Context.output_length, List.length_take, min_eq_left inImage]
      have room : cursor + sz.wire ≤ buf.length := by
        by_cases empty : sz.wire = 0
        · omega
        · have inside := store_inside (by
            rw [← List.length_pos_iff, Context.output_length]
            omega) written
          rw [wirePos, front, List.length_append, frontLength, Context.output_length,
            List.length_drop] at inside
          omega
      have noWrap : sizeT (cursor + sz.wire) = cursor + sz.wire := by
        unfold maxObject at allocated
        exact Nat.mod_eq_of_lt (by unfold sizeMod; omega)
      have stores : store (encrypt.output (image.take cursor) ++ buf.drop cursor)
          (encrypt.output (image.take cursor)).length
          ((encrypt.feed (image.take cursor)).output ((image.drop cursor).take sz.wire)) = _ :=
        store_behind (by rw [Context.output_length, plainLength, List.length_drop]; omega)
      have together : image.take cursor ++ (image.drop cursor).take sz.wire =
          image.take (cursor + sz.wire) := by
        rw [List.take_add]
      rw [frontLength, ← Context.output_append, together, Context.output_length, plainLength,
        List.drop_drop] at stores
      rw [wirePos, front, fed, stores] at written
      cases written
      rw [noWrap, wirePos, fed, ← Context.feed_append, together]
      refine ⟨imageRoom, room, rfl, rfl, rfl, ?_⟩
      intro inner
      have fixedSize := variableLast.fixed found inner
      rw [wellFormed.calcFieldSz_of_fixed found fixedSize] at sizes
      cases sizes
      rw [samePos]

/-- An encoded message of this kind is the encryption of a front part of the
image. -/
theorem of_encodeMessage_packed (wellFormed : ns.WellFormed) (variableLast : ns.VariableLast)
    {image wire : Bytes} {encrypt encrypt' : Context}
    (encoded : encodeMessage ns image encrypt = .ok (wire, encrypt')) :
    ∃ count ≤ image.length, sizeMessage ns image ns.size = .ok count ∧
      wire = encrypt.output (image.take count) ∧ encrypt' = encrypt.feed (image.take count) := by
  obtain ⟨wiresz, result, sized, bound, done, rfl, rfl⟩ := stages_of_encodeMessage encoded
  obtain ⟨inImage, -, -, front, fed, -⟩ := encryptFields_packed wellFormed variableLast
    (by rw [List.length_replicate]; omega) (le_refl _) sized done
  refine ⟨wiresz, inImage, sized, ?_, fed⟩
  rw [front, List.drop_of_length_le (by rw [List.length_replicate]), List.append_nil]

theorem NetStruct.VariableLast.wireOffset_eq (variableLast : ns.VariableLast)
    (message : Message ns) {count : Nat} (inside : count < ns.size) :
    message.wireOffset count = ns.memOffset count := by
  induction count with
  | zero => simp [Message.wireOffset]
  | succ count ih =>
      obtain ⟨field, found⟩ := ns.exists_field (show count < ns.size by omega)
      obtain ⟨content, foundContent⟩ := message.exists_content (show count < ns.size by omega)
      have fixedSize := variableLast.fixed found inside
      rw [message.wireOffset_succ foundContent, NetStruct.memOffset_succ found, ih (by omega),
        message.fixed count field content found foundContent fixedSize]

/-- An image that starts with the encoding holds the message. -/
theorem NetStruct.VariableLast.holds (variableLast : ns.VariableLast) (wellFormed : ns.WellFormed)
    {message : Message ns} {image : Bytes} (front : message.wire <+: image) :
    message.Holds image := by
  intro index content found
  have inside : index < ns.size := by
    rw [← message.covers]
    exact (List.getElem?_eq_some_iff.mp found).1
  have next := message.wireOffset_succ found
  have below : message.wireOffset (index + 1) ≤ message.wire.length := boundary_le _ _
  have part : message.wire.drop (message.wireOffset index) =
      content ++ message.wire.drop (message.wireOffset (index + 1)) := flatten_drop_cons found
  obtain ⟨behind, rfl⟩ := front
  rw [wellFormed.netStructCalcsz_eq, ← variableLast.wireOffset_eq message inside,
    load_eq_some (by rw [List.length_append]; omega), List.drop_append_of_le_length (by omega),
    part, List.append_assoc, List.take_left]

theorem NetStruct.VariableLast.aligned (variableLast : ns.VariableLast) (message : Message ns) :
    message.Aligned := by
  intro index field found isVariable
  exact variableLast.wireOffset_eq message (ns.lt_size_of_found found)

/-- The encoding of a message of this kind, from an image that starts with
it. -/
theorem NetStruct.VariableLast.encodeMessage_eq (variableLast : ns.VariableLast)
    (wellFormed : ns.WellFormed) {message : Message ns} {image : Bytes} {encrypt : Context}
    (front : message.wire <+: image) (short : message.wire.length ≤ intMax) :
    encodeMessage ns image encrypt =
      .ok (encrypt.output message.wire, encrypt.feed message.wire) := by
  have holds := variableLast.holds wellFormed front
  have aligned := variableLast.aligned message
  have encryptable : message.Encryptable := by
    intro content member
    obtain ⟨index, found⟩ := List.mem_iff_getElem?.mp member
    have next := message.wireOffset_succ found
    have below : message.wireOffset (index + 1) ≤ message.wire.length := boundary_le _ _
    omega
  apply ThemeSrv.encodeMessage_eq wellFormed holds encryptable
  rw [aligned.sizingCursor_eq wellFormed holds (le_refl _), message.wireOffset_size]

end ThemeSrv
