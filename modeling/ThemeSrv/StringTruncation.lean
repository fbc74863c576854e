import ThemeSrv.FieldAccessors
import ThemeSrv.Gatekeeper
import ThemeSrv.ImageEncoding
import ThemeSrv.ReaderBounds

/-!
# Strings on the wire

What of a text `enqueue_write` sends that has been stored with the setter of a
string.  The setter counts as many units as fit, but puts its terminator in
front of the last one that does.
-/

namespace ThemeSrv

open AllocatedBlock ByteString KeystreamCipher

/-! ### A string in its message -/

/-- The string with its count as they lie in a message. -/
def StringUtf16.image {szval : Nat} (field : StringUtf16 szval) : Bytes :=
  leBytes 2 field.count.toNat ++ leUnits field.units

/-- A message has a string of this capacity behind its count at a field. -/
structure NetStruct.StringAt (ns : NetStruct) (index szval : Nat) : Prop where
  wellFormed : ns.WellFormed
  szField : ∃ name, ns.fields[index]? = some ⟨.bufferSize, name, 2, 1⟩
  field : ∃ name, ns.fields[index + 1]? = some ⟨.stringUtf16, name, 2, szval⟩

/-- `enqueue_write` posts these bytes for a field of the image, between what it
posts for the fields on either side. -/
def SentAt (c : ClientBase) (ns : NetStruct) (image : Bytes) (index : Nat) (content : Bytes) :
    Prop :=
  ∃ c' front behind wire, enqueueWrite ns image c = .done () c' ∧
    c'.posted = c.posted ++ [⟨ns, front ++ content ++ behind, wire⟩] ∧
    c.encrypt.output (front ++ content ++ behind) <+: wire ∧
    front.length = ns.wireBefore image index

/-- A string that has been set to a text is sent as the front part of the text
that its count says, whole if the text is shorter than the field. -/
structure KeepsText (c : ClientBase) (ns : NetStruct) (index : Nat) (image : Bytes) {szval : Nat}
    (field : StringUtf16 szval) (text : List UInt16) : Prop where
  bounded : field.count.toNat ≤ szval
  sent : SentAt c ns image (index + 1) (leUnits (text.take field.count.toNat))
  whole : text.length < szval → field.count.toNat = text.length
  got : field.get = some (text.take field.count.toNat)

/-- The setter's count is within the limit of the codec, and either the text is
shorter than the field and its length fits the count, or the terminator falls
behind the counted part or on a unit that is zero anyway. -/
def SetterKeeps (szval : Nat) (text : List UInt16) : Prop :=
  min szval text.length % 2 ^ 16 ≤ kMaxBufCount ∧
    if text.length < szval then text.length < 2 ^ 16
    else 2 ^ 16 ≤ szval ∨ text[szval - 1]? = some 0

namespace StringUtf16

variable {szval : Nat}

theorem count_little (field : StringUtf16 szval) (text : List UInt16) :
    (field.set .little text).count.toNat = min szval text.length % 2 ^ 16 := by
  simp only [set, themeLe, UInt16.toNat_ofNat']

theorem image_length (field : StringUtf16 szval) : field.image.length = 2 + 2 * szval := by
  rw [image, List.length_append, leBytes_length, leUnits_length, field.covers]

theorem units_take (field : StringUtf16 szval) (text : List UInt16) {count : Nat}
    (le : count ≤ min szval text.length) :
    (field.set .little text).units.take count =
      (text.take count).set (min (szval - 1) text.length) 0 := by
  have copied : (text.take (min szval text.length) ++
      field.units.drop (min szval text.length)).take count = text.take count := by
    rw [List.take_append_of_le_length (by rw [List.length_take]; omega), List.take_take,
      min_eq_left le]
  simp only [set]
  rw [List.take_set, copied]

/-- The counted part is the text exactly when the terminator does not change
it. -/
theorem units_take_iff (field : StringUtf16 szval) (text : List UInt16) {count : Nat}
    (le : count ≤ min szval text.length) :
    (field.set .little text).units.take count = text.take count ↔
      (min (szval - 1) text.length < count → text[szval - 1]? = some 0) := by
  have nonempty := field.nonempty
  rw [units_take field text le]
  constructor
  · intro kept inside
    have place : min (szval - 1) text.length = szval - 1 := by omega
    rw [place] at kept inside
    have zero := congrArg (fun units : List UInt16 => units[szval - 1]?) kept
    simp only [List.getElem?_set_self (show szval - 1 < (text.take count).length by
      rw [List.length_take]; omega), List.getElem?_take_of_lt inside] at zero
    exact zero.symm
  · intro harmless
    by_cases inside : min (szval - 1) text.length < count
    · have place : min (szval - 1) text.length = szval - 1 := by omega
      have zero := harmless inside
      rw [place] at inside ⊢
      have same : (text.take count)[szval - 1]? = some 0 := by
        rw [List.getElem?_take_of_lt inside, zero]
      obtain ⟨bound, value⟩ := List.getElem?_eq_some_iff.1 same
      conv_lhs => rw [← value]
      exact List.set_getElem_self bound
    · rw [List.set_eq_of_length_le]
      rw [List.length_take]
      omega

end StringUtf16

/-! ### The string that is sent -/

section Sent

variable {ns : NetStruct} {index szval : Nat} {image : Bytes}

/-- What is encrypted of a string: the counted units, if the codec accepts the
count, and else nothing that the cipher takes. -/
theorem part_string (place : ns.StringAt index szval) {field : StringUtf16 szval}
    (covered : field.count.toNat ≤ szval)
    (holds : load image (ns.memOffset index) (2 + 2 * szval) = some field.image) :
    if field.count.toNat ≤ kMaxBufCount then
      ns.part image (index + 1) = leUnits (field.units.take field.count.toNat)
    else
      intMax < ns.wireSz image (index + 1) := by
  obtain ⟨sizeName, foundSize⟩ := place.szField
  obtain ⟨name, found⟩ := place.field
  have unitsLength : (leUnits field.units).length = 2 * szval := by
    rw [leUnits_length, field.covers]
  have parts := @load_append _ image (leBytes 2 field.count.toNat) (leUnits field.units)
    (ns.memOffset index) (by rw [leBytes_length, unitsLength]; exact holds)
  rw [leBytes_length, unitsLength] at parts
  obtain ⟨prefixLoaded, unitsLoaded⟩ := parts
  have offset : ns.memOffset (index + 1) = ns.memOffset index + 2 := by
    rw [NetStruct.memOffset_succ foundSize]
    rfl
  have inside := load_inside holds
  have prefixed : ns.Prefixed (index + 1) ⟨.stringUtf16, name, 2, szval⟩
      ⟨.bufferSize, sizeName, 2, 1⟩ := by
    obtain ⟨sizeField, prefixed⟩ := place.wellFormed.prefixed found rfl
    have same := prefixed.found
    change ns.fields[index]? = some sizeField at same
    rw [foundSize] at same
    cases same
    exact prefixed
  have prefixHere : load image (ns.memOffset (index + 1) - 2) 2 =
      some (leBytes 2 field.count.toNat) := by
    rw [offset, Nat.add_sub_cancel]
    exact prefixLoaded
  have count : leValue (leBytes 2 field.count.toNat) = field.count.toNat :=
    leValue_leBytes_of_lt field.count.toNat_lt
  have size := @NetStruct.wireSz_of_variable _ _ _ image found rfl
  rw [NetStruct.WellFormed.announced_eq found prefixed prefixHere, count] at size
  by_cases within : field.count.toNat ≤ kMaxBufCount
  · have announced : announcedCount ⟨.bufferSize, sizeName, 2, 1⟩ ⟨.stringUtf16, name, 2, szval⟩
        field.count.toNat = some field.count.toNat := by
      simp [announcedCount, ownCount, within]
    have wire : ns.wireSz image (index + 1) = 2 * field.count.toNat := by
      rw [size, announced]
      exact Nat.mod_eq_of_lt (by unfold sizeMod kMaxBufCount at *; dsimp only [countOrMax]; omega)
    have units := unitsLoaded (2 * field.count.toNat) (by omega)
    rw [load_eq_some (by omega)] at units
    rw [if_pos within, NetStruct.part, wire, offset, Option.some.inj units, leUnits_take]
  · have announced : announcedCount ⟨.bufferSize, sizeName, 2, 1⟩ ⟨.stringUtf16, name, 2, szval⟩
        field.count.toNat = none := by
      simp [announcedCount, ownCount, within]
    have wire : ns.wireSz image (index + 1) = sizeMod - 2 := by
      rw [size, announced]
      exact sizeT_mul_sizeMax (by norm_num)
    rw [if_neg within, wire]
    unfold sizeMod intMax
    norm_num

/-- A string keeps its text exactly when the setter does, in a message that
`enqueue_write` can encode. -/
theorem keepsText_iff (place : ns.StringAt index szval) (field : StringUtf16 szval)
    (text : List UInt16)
    (holds : load image (ns.memOffset index) (2 + 2 * szval) =
      some (field.set .little text).image) (c : ClientBase) :
    KeepsText c ns index image (field.set .little text) text ↔
      SetterKeeps szval text ∧ ns.Encodable image := by
  have count := field.count_little text
  have nonempty := field.nonempty
  have below : (field.set .little text).count.toNat ≤ min szval text.length := by
    rw [count]
    exact Nat.mod_le _ _
  have covered : (field.set .little text).count.toNat ≤ szval := by omega
  have part := part_string place covered holds
  have inside : index + 1 < ns.size := ns.lt_size_of_found place.field.choose_spec
  have kept := field.units_take_iff text below
  constructor
  · intro keeps
    obtain ⟨c', front, behind, wire, done, posted, output, -⟩ := keeps.sent
    obtain ⟨encodable, -⟩ := (enqueueWrite_iff place.wellFormed c _).1
      ⟨c', wire, done, posted, output⟩
    have within : (field.set .little text).count.toNat ≤ kMaxBufCount := by
      by_contra oversized
      rw [if_neg oversized] at part
      exact absurd part (Nat.not_lt.2 (encodable.ready (index + 1) inside).1)
    refine ⟨⟨count ▸ within, ?_⟩, encodable⟩
    by_cases short : text.length < szval
    · rw [if_pos short]
      have whole := keeps.whole short
      omega
    · rw [if_neg short]
      by_cases wide : 2 ^ 16 ≤ szval
      · exact Or.inl wide
      · right
        have got := keeps.got
        rw [StringUtf16.get, if_pos covered] at got
        apply kept.1 (Option.some.inj got)
        omega
  · rintro ⟨⟨within, fits⟩, encodable⟩
    have same : (field.set .little text).units.take (field.set .little text).count.toNat =
        text.take (field.set .little text).count.toNat := by
      apply kept.2
      intro inside
      by_cases short : text.length < szval
      · omega
      · rw [if_neg short] at fits
        rcases fits with wide | zero
        · have smaller := Nat.mod_lt (min szval text.length) (show 0 < 2 ^ 16 by norm_num)
          omega
        · exact zero
    constructor
    case bounded => exact covered
    case sent =>
      rw [if_pos (count ▸ within), same] at part
      obtain ⟨behind, split⟩ := @NetStruct.plain_split ns image _ _ inside
      obtain ⟨c', wire, done, posted, output⟩ :=
        (enqueueWrite_iff place.wellFormed c _).2 ⟨encodable, rfl⟩
      rw [split, part] at posted output
      refine ⟨c', _, behind, wire, done, posted, output, NetStruct.plain_length ?_⟩
      exact fun earlier lt => encodable.ready earlier (lt.trans inside)
    case whole =>
      intro short
      rw [if_pos short] at fits
      rw [count, min_eq_right short.le]
      exact Nat.mod_eq_of_lt fits
    case got => rw [StringUtf16.get, if_pos covered, same]

end Sent

/-- A file server reply whose address has been set to a text. -/
def addressImage (text : List UInt16) : Bytes :=
  [1, 0, 5, 0, 0, 0] ++ ((StringUtf16.cleared (by decide : 0 < 24)).set .little text).image

theorem fileSrvReply_stringAt : fileSrvReply.StringAt 2 24 where
  wellFormed := by decide
  szField := ⟨"addresssz", rfl⟩
  field := ⟨"address", rfl⟩

theorem addressImage_holds (text : List UInt16) :
    load (addressImage text) (fileSrvReply.memOffset 2) (2 + 2 * 24) =
      some ((StringUtf16.cleared (by decide : 0 < 24)).set .little text).image := by
  have length := StringUtf16.image_length
    ((StringUtf16.cleared (by decide : 0 < 24)).set .little text)
  have offset : fileSrvReply.memOffset 2 = 6 := by decide
  rw [offset, load_eq_some]
  · congr 1
    change ((StringUtf16.cleared _).set .little text).image.take _ = _
    exact List.take_of_length_le length.le
  · rw [addressImage, List.length_append, length]
    decide

theorem keepsText_short_address :
    KeepsText (ClientBase.new ⟨[], .wouldBlock, [], []⟩) fileSrvReply 2 (addressImage [0x31, 0x30])
      ((StringUtf16.cleared (by decide : 0 < 24)).set .little [0x31, 0x30]) [0x31, 0x30] :=
  (keepsText_iff fileSrvReply_stringAt (.cleared (by decide)) [0x31, 0x30]
    (addressImage_holds [0x31, 0x30]) _).2
      ⟨⟨by decide, by decide⟩, ⟨12, by decide, by decide, by decide⟩, by decide⟩

/-! ### Addresses -/

/-- The address of a reply as a string field. -/
def AddressReply.field (reply : AddressReply) (covers : reply.address.length = capacity) :
    StringUtf16 AddressReply.capacity where
  count := .ofNat reply.addresssz
  units := reply.address
  covers := covers
  nonempty := by decide

/-- `set_address` is the setter of that field. -/
theorem AddressReply.setAddress_eq (reply : AddressReply)
    (covers : reply.address.length = capacity) (value : List UInt16) :
    (reply.setAddress value).address = ((reply.field covers).set .little value).units ∧
      (reply.setAddress value).addresssz = ((reply.field covers).set .little value).count.toNat := by
  constructor
  · rfl
  · rw [StringUtf16.count_little]
    apply (Nat.mod_eq_of_lt _).symm
    change min 24 value.length < 2 ^ 16
    omega

/-- An address of 24 units is sent with a zero in the place of its last. -/
theorem not_keepsText_every_text :
    ¬ ∀ (c : ClientBase) (ns : NetStruct) (index szval : Nat) (image : Bytes)
      (field : StringUtf16 szval) (text : List UInt16), ns.StringAt index szval →
      load image (ns.memOffset index) (2 + 2 * szval) = some (field.set .little text).image →
      ns.Encodable image → KeepsText c ns index image (field.set .little text) text := by
  intro keeps
  have got := (keeps (ClientBase.new ⟨[], .wouldBlock, [], []⟩) fileSrvReply 2 24 _
    (.cleared (by decide)) (List.replicate 24 0x41) fileSrvReply_stringAt (addressImage_holds _)
    ⟨⟨56, by decide, by decide, by decide⟩, by decide⟩).got
  revert got
  decide

end ThemeSrv
