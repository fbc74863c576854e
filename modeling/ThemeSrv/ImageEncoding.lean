import ThemeSrv.MessageEncoding
import ThemeSrv.ReaderRun
import ThemeSrv.WriterQueue

/-!
# What is encrypted of an image

`enqueue_write` takes any image apart: of every field the bytes that its
length prefix announces, from its place in memory.  It succeeds exactly if the
sizing pass has reserved room for them, and no field reaches out of the image
or is too long for the cipher.
-/

namespace ThemeSrv

open AllocatedBlock ConcatenatedParts KeystreamCipher

namespace NetStruct

variable (ns : NetStruct) (image : Bytes)

/-- What the encrypting loop takes of a field. -/
def part (index : Nat) : Bytes :=
  (image.drop (ns.memOffset index)).take (ns.wireSz image index)

/-- What it takes of the first `count` fields. -/
def plain : Nat → Bytes
  | 0 => []
  | count + 1 => plain count ++ ns.part image count

/-- A field that the encrypting loop can take. -/
def PartReady (index : Nat) : Prop :=
  ns.wireSz image index ≤ intMax ∧ ns.memOffset index + ns.wireSz image index ≤ image.length

instance (index : Nat) : Decidable (ns.PartReady image index) :=
  inferInstanceAs (Decidable (_ ∧ _))

/-- An image that `enqueue_write` can encode. -/
structure Encodable : Prop where
  sized : ∃ wiresz, ns.sizingCursor image ns.size = some wiresz ∧ wiresz < maxObject ∧
    ns.wireBefore image ns.size ≤ wiresz
  ready : ∀ index < ns.size, ns.PartReady image index

end NetStruct

variable {ns : NetStruct} {image buf : Bytes} {encrypt : Context} {count : Nat}

theorem NetStruct.PartReady.part_length {index : Nat} (ready : ns.PartReady image index) :
    (ns.part image index).length = ns.wireSz image index := by
  have inside := ready.2
  rw [part, List.length_take, List.length_drop]
  omega

theorem NetStruct.plain_length (ready : ∀ index < count, ns.PartReady image index) :
    (ns.plain image count).length = ns.wireBefore image count := by
  induction count with
  | zero => rfl
  | succ count ih =>
      rw [plain, wireBefore, List.length_append, (ready count (Nat.lt_succ_self _)).part_length,
        ih fun index lt => ready index (Nat.lt_succ_of_lt lt)]

/-- Where the encrypting loop stands behind the first `count` fields. -/
def encryptedUpTo (ns : NetStruct) (image buf : Bytes) (encrypt : Context) (count : Nat) :
    Encoding where
  memPos := ns.memOffset count
  wirePos := ns.wireBefore image count
  buf := encrypt.output (ns.plain image count) ++ buf.drop (ns.wireBefore image count)
  encrypt := encrypt.feed (ns.plain image count)

/-- One field more, if it can be taken and the buffer has room for it. -/
theorem encryptFields_next (wellFormed : ns.WellFormed) (inside : count < ns.size)
    (ready : ∀ index < count, ns.PartReady image index)
    (room : ns.wireBefore image count ≤ buf.length) {result : Encoding}
    (before : encryptFields ns image ⟨0, 0, buf, encrypt⟩ count =
      .ok (encryptedUpTo ns image buf encrypt count)) :
    encryptFields ns image ⟨0, 0, buf, encrypt⟩ (count + 1) = .ok result ↔
      ns.PartReady image count ∧ ns.wireBefore image (count + 1) ≤ buf.length ∧
        result = encryptedUpTo ns image buf encrypt (count + 1) := by
  obtain ⟨field, found⟩ := ns.exists_field inside
  have nextOffset := NetStruct.memOffset_succ found
  have frontLength : (encrypt.output (ns.plain image count)).length = ns.wireBefore image count := by
    rw [Context.output_length, NetStruct.plain_length ready]
  have stored (taken : ns.PartReady image count)
      (fits : ns.wireBefore image (count + 1) ≤ buf.length) :
      store (encrypt.output (ns.plain image count) ++ buf.drop (ns.wireBefore image count))
          (ns.wireBefore image count)
          ((encrypt.feed (ns.plain image count)).output (ns.part image count)) =
        some (encryptedUpTo ns image buf encrypt (count + 1)).buf := by
    rw [NetStruct.wireBefore] at fits
    have behind : ((encrypt.feed (ns.plain image count)).output (ns.part image count)).length ≤
        (buf.drop (ns.wireBefore image count)).length := by
      rw [Context.output_length, taken.part_length, List.length_drop]
      omega
    have stores : store (encrypt.output (ns.plain image count) ++
        buf.drop (ns.wireBefore image count)) (encrypt.output (ns.plain image count)).length
          ((encrypt.feed (ns.plain image count)).output (ns.part image count)) = _ :=
      store_behind behind
    rw [frontLength, ← Context.output_append, Context.output_length, taken.part_length,
      List.drop_drop] at stores
    exact stores
  constructor
  · intro done
    obtain ⟨last, sz, plain, cells, prior, sizes, short, loaded, written, rfl⟩ :=
      of_encryptFields_succ done
    obtain rfl : encryptedUpTo ns image buf encrypt count = last :=
      Except.ok.inj (before.symm.trans prior)
    have place := load_inside loaded
    change calcFieldSz ns count (some ⟨image, ns.memOffset count⟩) = .ok sz at sizes
    change ns.memOffset count + sz.wire ≤ image.length at place
    rw [wellFormed.calcFieldSz_at found (by omega)] at sizes
    cases sizes
    have taken : ns.PartReady image count := ⟨short, place⟩
    change load image (ns.memOffset count) (ns.wireSz image count) = some plain at loaded
    rw [load_eq_some place] at loaded
    obtain rfl : ns.part image count = plain := Option.some.inj loaded
    have fits : ns.wireBefore image (count + 1) ≤ buf.length := by
      rw [NetStruct.wireBefore]
      by_cases empty : ns.wireSz image count = 0
      · omega
      · have inBuf := store_inside (by
          rw [← List.length_pos_iff, Context.output_length, taken.part_length]
          omega) written
        change ns.wireBefore image count + _ ≤
          (encrypt.output (ns.plain image count) ++
            buf.drop (ns.wireBefore image count)).length at inBuf
        rw [Context.output_length, taken.part_length, List.length_append, frontLength,
          List.length_drop] at inBuf
        omega
    refine ⟨taken, fits, ?_⟩
    obtain rfl := Option.some.inj ((stored taken fits).symm.trans written)
    simp only [encryptedUpTo, nextOffset, NetStruct.wireBefore, NetStruct.plain,
      Context.feed_append]
  · rintro ⟨taken, fits, rfl⟩
    have place := taken.2
    have loaded : load image (ns.memOffset count) (ns.wireSz image count) =
        some (ns.part image count) := load_eq_some place
    have written := stored taken fits
    rw [encryptFields, before]
    simp only [encryptedUpTo, bind, Except.bind,
      wellFormed.calcFieldSz_at found (show ns.memOffset count ≤ image.length by omega), assertD,
      if_true, decide_eq_true_eq, if_pos taken.1, loaded]
    rw [written]
    simp only [encryptedUpTo, nextOffset, NetStruct.wireBefore, NetStruct.plain,
      Context.feed_append, pure, Except.pure]

/-- The encrypting loop succeeds exactly if it can take the fields and the
buffer has room for them. -/
theorem encryptFields_iff (wellFormed : ns.WellFormed) (le : count ≤ ns.size) {result : Encoding} :
    encryptFields ns image ⟨0, 0, buf, encrypt⟩ count = .ok result ↔
      (∀ index < count, ns.PartReady image index) ∧ ns.wireBefore image count ≤ buf.length ∧
        result = encryptedUpTo ns image buf encrypt count := by
  induction count generalizing result with
  | zero =>
      simp [encryptFields, encryptedUpTo, NetStruct.wireBefore, NetStruct.plain, eq_comm]
  | succ count ih =>
      constructor
      · intro done
        obtain ⟨before, -, -, -, prior, -⟩ := of_encryptFields_succ done
        obtain ⟨ready, room, rfl⟩ := (ih (Nat.le_of_succ_le le)).1 prior
        obtain ⟨taken, fits, rfl⟩ := (encryptFields_next wellFormed le ready room prior).1 done
        refine ⟨fun index lt => ?_, fits, rfl⟩
        rcases Nat.eq_or_lt_of_le (Nat.le_of_lt_succ lt) with rfl | earlier
        · exact taken
        · exact ready index earlier
      · rintro ⟨ready, fits, rfl⟩
        have earlier : ∀ index < count, ns.PartReady image index :=
          fun index lt => ready index (Nat.lt_succ_of_lt lt)
        have room : ns.wireBefore image count ≤ buf.length := by
          rw [NetStruct.wireBefore] at fits
          omega
        exact (encryptFields_next wellFormed le earlier room
          ((ih (Nat.le_of_succ_le le)).2 ⟨earlier, room, rfl⟩)).2
            ⟨ready count (Nat.lt_succ_self _), fits, rfl⟩

/-- What is encoded of an image: the encryption of its parts, in a buffer that
may be longer. -/
theorem NetStruct.Encodable.encodeMessage_eq (encodable : ns.Encodable image)
    (wellFormed : ns.WellFormed) (encrypt : Context) :
    ∃ wire, encodeMessage ns image encrypt = .ok (wire, encrypt.feed (ns.plain image ns.size)) ∧
      encrypt.output (ns.plain image ns.size) <+: wire := by
  obtain ⟨wiresz, sized, small, room⟩ := encodable.sized
  have sizing := (wellFormed.sizeMessage_iff (le_refl _)).2 sized
  have encrypted := (@encryptFields_iff ns image (List.replicate wiresz 0) encrypt _ wellFormed
    (le_refl _) _).2 ⟨encodable.ready, by rwa [List.length_replicate], rfl⟩
  refine ⟨(encryptedUpTo ns image (List.replicate wiresz 0) encrypt ns.size).buf, ?_,
    List.prefix_append _ _⟩
  rw [encodeMessage, sizing]
  simp only [allocBuf, if_true, if_neg (Nat.not_le.mpr small), bind, Except.bind, encrypted, pure,
    Except.pure]
  rfl

theorem encodable_of_encodeMessage (wellFormed : ns.WellFormed) {wire : Bytes} {encrypt' : Context}
    (encoded : encodeMessage ns image encrypt = .ok (wire, encrypt')) :
    ns.Encodable image ∧ encrypt' = encrypt.feed (ns.plain image ns.size) := by
  obtain ⟨wiresz, result, sized, small, done, -, rfl⟩ := stages_of_encodeMessage encoded
  obtain ⟨ready, room, rfl⟩ := (encryptFields_iff wellFormed (le_refl _)).1 done
  rw [List.length_replicate] at room
  exact ⟨⟨⟨wiresz, (wellFormed.sizeMessage_iff (le_refl _)).1 sized, small, room⟩, ready⟩, rfl⟩

/-- `enqueue_write` posts the parts of an image exactly if it can encode it. -/
theorem enqueueWrite_iff (wellFormed : ns.WellFormed) (c : ClientBase) (plain : Bytes) :
    (∃ c' wire, enqueueWrite ns image c = .done () c' ∧
      c'.posted = c.posted ++ [⟨ns, plain, wire⟩] ∧ c.encrypt.output plain <+: wire) ↔
      ns.Encodable image ∧ plain = ns.plain image ns.size := by
  constructor
  · rintro ⟨c', wire, done, posted, -⟩
    have case := enqueueCase ns image c
    rw [done] at case
    obtain ⟨wire', encrypt, encoded, -, -, -, recorded⟩ := case.recorded
    obtain ⟨encodable, rfl⟩ := encodable_of_encodeMessage wellFormed encoded
    have same := List.append_cancel_left (posted.symm.trans recorded)
    simp only [List.cons.injEq, Posted.mk.injEq, and_true, true_and, Context.feed_fed,
      List.drop_left] at same
    exact ⟨encodable, same.1⟩
  · rintro ⟨encodable, rfl⟩
    obtain ⟨wire, encoded, front⟩ := encodable.encodeMessage_eq wellFormed c.encrypt
    obtain ⟨c', done⟩ := enqueueWrite_of_encoded encoded
    have case := enqueueCase ns image c
    rw [done] at case
    obtain ⟨wire', encrypt, encoded', -, -, -, recorded⟩ := case.recorded
    obtain ⟨rfl, rfl⟩ : wire = wire' ∧ c.encrypt.feed (ns.plain image ns.size) = encrypt := by
      simpa using encoded.symm.trans encoded'
    refine ⟨c', wire, done, ?_, front⟩
    rw [recorded, Context.feed_fed, List.drop_left]

/-- The plain text of an image around one of its fields. -/
theorem NetStruct.plain_split {index : Nat} (inside : index < count) :
    ∃ behind, ns.plain image count =
      ns.plain image index ++ ns.part image index ++ behind := by
  induction count with
  | zero => exact absurd inside (Nat.not_lt_zero _)
  | succ count ih =>
      rcases Nat.eq_or_lt_of_le (Nat.le_of_lt_succ inside) with rfl | earlier
      · exact ⟨[], (List.append_nil _).symm⟩
      · obtain ⟨behind, split⟩ := ih earlier
        exact ⟨behind ++ ns.part image count, by rw [plain, split, List.append_assoc]⟩

end ThemeSrv
