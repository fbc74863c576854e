import ThemeSrv.ConcatenatedParts
import ThemeSrv.FieldSizes

/-!
# Messages and their two representations

A message gives each field of its descriptor a byte string.  On the wire the
byte strings follow one another; in memory each stands at its own offset.
The two agree on fixed fields and drift apart behind every string that is
shorter than its capacity.
-/

namespace ThemeSrv

open AllocatedBlock ByteString ConcatenatedParts

/-- A valid message of a descriptor, field by field. -/
structure Message (ns : NetStruct) where
  contents : List Bytes
  covers : contents.length = ns.size
  fixed : ∀ (index : Nat) (field : NetField) (content : Bytes),
    ns.fields[index]? = some field → contents[index]? = some content →
    field.type.isVariable = false → content.length = field.memSize
  /-- A length prefix announces the elements behind it; a string has no more
  of them than its field. -/
  counted : ∀ (index : Nat) (field sizeField : NetField) (content sizeContent : Bytes),
    ns.fields[index + 1]? = some field → contents[index + 1]? = some content →
    field.type.isVariable = true →
    ns.fields[index]? = some sizeField → contents[index]? = some sizeContent →
    ∃ count, announcedCount sizeField field (leValue sizeContent) = some count ∧
      content.length = field.elementsz * count ∧
      (field.type.isBuffer = false → count ≤ field.count)

/-- Whether the contents have a valid field at an index. -/
def contentValid (ns : NetStruct) (contents : List Bytes) (index : Nat) : Bool :=
  match ns.fields[index]?, contents[index]? with
  | some field, some content =>
      if field.type.isVariable then
        match ns.previous? index, contents[index - 1]? with
        | some sizeField, some sizeContent =>
            match announcedCount sizeField field (leValue sizeContent) with
            | some count =>
                content.length == field.elementsz * count &&
                  (field.type.isBuffer || count ≤ field.count)
            | none => false
        | _, _ => false
      else
        content.length == field.memSize
  | _, _ => false

/-- A message from contents that are valid field by field. -/
def Message.ofContents {ns : NetStruct} (contents : List Bytes) (covers : contents.length = ns.size)
    (valid : ∀ index < ns.size, contentValid ns contents index = true) : Message ns where
  contents := contents
  covers := covers
  fixed := by
    intro index field content found foundContent fixedSize
    have valid := valid index (ns.lt_size_of_found found)
    simpa [contentValid, found, foundContent, fixedSize] using valid
  counted := by
    intro index field sizeField content sizeContent found foundContent variableSize foundSize
      foundSizeContent
    have valid := valid (index + 1) (ns.lt_size_of_found found)
    cases announced : announcedCount sizeField field (leValue sizeContent) with
    | none =>
        simp [contentValid, found, foundContent, variableSize, NetStruct.previous?, foundSize,
          foundSizeContent, announced] at valid
    | some count =>
        simp only [contentValid, found, foundContent, variableSize, NetStruct.previous?, foundSize,
          foundSizeContent, announced, if_true, Nat.add_sub_cancel, Bool.and_eq_true,
          beq_iff_eq, Bool.or_eq_true, decide_eq_true_eq] at valid
        refine ⟨count, rfl, valid.1, fun notBuffer => ?_⟩
        simpa [notBuffer] using valid.2

/-! ### Sizes of the descriptor -/

/-- `net_struct_calcsz` does not wrap. -/
theorem NetStruct.WellFormed.netStructCalcsz_eq {ns : NetStruct} (wellFormed : ns.WellFormed)
    (index : Nat) : netStructCalcsz ns index = ns.memOffset index := by
  have bound (count : Nat) : ns.memOffset count < sizeMod := by
    have below := ns.memOffset_le_memTotal count
    have total := wellFormed.memTotal_lt
    unfold sizeMod
    omega
  induction index with
  | zero => simp [netStructCalcsz]
  | succ index ih =>
      by_cases inside : index < ns.size
      · obtain ⟨field, found⟩ := ns.exists_field inside
        have nextBound := bound (index + 1)
        have nextOffset := NetStruct.memOffset_succ found
        have plain : sizeT field.memSize = field.memSize := Nat.mod_eq_of_lt (by omega)
        rw [netStructCalcsz, List.take_add_one, found, Option.toList_some, List.foldl_append]
        change sizeT (netStructCalcsz ns index + sizeT field.memSize) = _
        rw [ih, plain, ← nextOffset]
        exact Nat.mod_eq_of_lt nextBound
      · have whole (count : Nat) (past : ns.size ≤ count) : ns.fields.take count = ns.fields :=
          List.take_of_length_le past
        rw [netStructCalcsz, NetStruct.memOffset, whole _ (by omega)]
        rw [netStructCalcsz, NetStruct.memOffset, whole _ (by omega)] at ih
        exact ih

namespace Message

variable {ns : NetStruct} {index : Nat} {field : NetField} {content : Bytes}

/-- The encoding of a message before encryption. -/
def wire (message : Message ns) : Bytes :=
  message.contents.flatten

/-- Where a field starts on the wire. -/
def wireOffset (message : Message ns) (index : Nat) : Nat :=
  boundary message.contents index

/-- A memory image holds every field of the message where
`net_struct_calcsz` puts it. -/
def Holds (message : Message ns) (image : Bytes) : Prop :=
  ∀ (index : Nat) (content : Bytes), message.contents[index]? = some content →
    load image (netStructCalcsz ns index) content.length = some content

/-- The first `count` fields are in a buffer. -/
def HeldUpTo (message : Message ns) (count : Nat) (block : Bytes) : Prop :=
  ∀ (index : Nat) (content : Bytes), index < count → message.contents[index]? = some content →
    load block (ns.memOffset index) content.length = some content

/-- No field is longer than what the reader allocates behind its offset. -/
def Fits (message : Message ns) : Prop :=
  ∀ (index : Nat) (content : Bytes), message.contents[index]? = some content →
    netStructCalcsz ns index + content.length ≤ (ns.memTotal / 8 + 4) * 8

theorem forall_content_iff (message : Message ns) {property : Nat → Bytes → Prop} :
    (∀ index < message.contents.length, ∀ content ∈ message.contents[index]?,
      property index content) ↔
      ∀ (index : Nat) (content : Bytes), message.contents[index]? = some content →
        property index content :=
  ⟨fun checked index content found =>
      checked index (List.getElem?_eq_some_iff.mp found).1 content found,
    fun holds index _ content found => holds index content found⟩

instance (message : Message ns) (image : Bytes) : Decidable (message.Holds image) :=
  decidable_of_iff _ message.forall_content_iff

instance (message : Message ns) : Decidable message.Fits :=
  decidable_of_iff _ message.forall_content_iff

variable (message : Message ns)

theorem exists_content (inside : index < ns.size) :
    ∃ content, message.contents[index]? = some content :=
  ⟨_, List.getElem?_eq_getElem (by rw [message.covers]; exact inside)⟩

theorem exists_field (found : message.contents[index]? = some content) :
    ∃ field, ns.fields[index]? = some field := by
  obtain ⟨inside, -⟩ := List.getElem?_eq_some_iff.mp found
  rw [message.covers] at inside
  exact ns.exists_field inside

theorem wireOffset_size : message.wireOffset ns.size = message.wire.length := by
  rw [wireOffset, ← message.covers, boundary_length, wire]

theorem wireOffset_succ (found : message.contents[index]? = some content) :
    message.wireOffset (index + 1) = message.wireOffset index + content.length :=
  boundary_succ found

theorem exists_count (wellFormed : ns.WellFormed) (found : ns.fields[index]? = some field)
    (foundContent : message.contents[index]? = some content)
    (variableSize : field.type.isVariable = true) :
    ∃ sizeField sizeContent count, ns.Prefixed index field sizeField ∧
      message.contents[index - 1]? = some sizeContent ∧
      sizeContent.length = sizeField.elementsz ∧
      announcedCount sizeField field (leValue sizeContent) = some count ∧
      content.length = field.elementsz * count ∧
      (field.type.isBuffer = false → count ≤ field.count) := by
  obtain ⟨sizeField, prefixed⟩ := wellFormed.prefixed found variableSize
  obtain ⟨before, rfl, foundSize⟩ := prefixed.exists_succ
  obtain ⟨sizeContent, foundSizeContent⟩ := message.exists_content
    (ns.lt_size_of_found foundSize)
  obtain ⟨count, announced, length, within⟩ := message.counted before field sizeField content
    sizeContent found foundContent variableSize foundSize foundSizeContent
  have sizeLength := message.fixed before sizeField sizeContent foundSize foundSizeContent
    prefixed.fixedSize
  rw [prefixed.memSize_eq] at sizeLength
  exact ⟨sizeField, sizeContent, count, prefixed, foundSizeContent, sizeLength, announced, length,
    within⟩

/-- Only a buffer can be longer than its field in memory. -/
theorem length_le_memSize (wellFormed : ns.WellFormed) (found : ns.fields[index]? = some field)
    (foundContent : message.contents[index]? = some content)
    (notBuffer : field.type.isBuffer = false) : content.length ≤ field.memSize := by
  cases kind : field.type.isVariable with
  | false => exact (message.fixed index field content found foundContent kind).le
  | true =>
      obtain ⟨_, _, count, _, _, _, _, length, within⟩ :=
        message.exists_count wellFormed found foundContent kind
      rw [length]
      exact Nat.mul_le_mul_left _ (within notBuffer)

theorem memOffset_add_length_le (wellFormed : ns.WellFormed)
    (foundContent : message.contents[index]? = some content) (inner : index + 1 < ns.size) :
    ns.memOffset index + content.length ≤ ns.memOffset (index + 1) := by
  obtain ⟨field, found⟩ := message.exists_field foundContent
  have notBuffer : field.type.isBuffer = false := by
    by_contra buffer
    have buffer : field.type.isBuffer = true := by simpa using buffer
    have variableSize : field.type.isVariable = true := by
      cases kind : field.type <;> simp_all [DataType.isBuffer, DataType.isVariable]
    obtain ⟨sizeField, prefixed⟩ := wellFormed.prefixed found variableSize
    have last := prefixed.last buffer
    omega
  have within := message.length_le_memSize wellFormed found foundContent notBuffer
  rw [NetStruct.memOffset_succ found]
  omega

theorem content_le_limit (wellFormed : ns.WellFormed) (found : ns.fields[index]? = some field)
    (foundContent : message.contents[index]? = some content) :
    content.length ≤ max field.memSize (field.elementsz * kMaxBufCount) := by
  cases kind : field.type.isVariable with
  | false =>
      rw [message.fixed index field content found foundContent kind]
      exact Nat.le_max_left _ _
  | true =>
      obtain ⟨_, _, count, _, _, _, announced, length, _⟩ :=
        message.exists_count wellFormed found foundContent kind
      rw [length]
      exact (Nat.mul_le_mul_left _ (announcedCount_le announced).1).trans (Nat.le_max_right _ _)

/-- A field and the fixed fields behind it can be received in one buffer. -/
theorem length_add_fixedRun_lt (wellFormed : ns.WellFormed)
    (foundContent : message.contents[index]? = some content) :
    content.length + ns.fixedRun (index + 1) + 64 ≤ maxObject := by
  obtain ⟨field, found⟩ := message.exists_field foundContent
  have limit := message.content_le_limit wellFormed found foundContent
  have bound := wellFormed.limit_lt found
  have offset := NetStruct.memOffset_succ found
  have run := ns.memOffset_add_fixedRun_le (index + 1)
  unfold maxObject
  rcases le_max_iff.mp limit with fixedLimit | variableLimit <;> omega

/-! ### Fields in memory -/

variable {message} {block : Bytes} {count : Nat}

/-- The sizes the codec looks up in a buffer are those of the message, for
the first field the buffer does not hold as well. -/
theorem HeldUpTo.wireSz_eq (held : message.HeldUpTo count block) (wellFormed : ns.WellFormed)
    (foundContent : message.contents[index]? = some content) (within : index ≤ count) :
    ns.wireSz block index = content.length := by
  obtain ⟨field, found⟩ := message.exists_field foundContent
  cases kind : field.type.isVariable with
  | false =>
      rw [NetStruct.wireSz_of_fixed found kind,
        message.fixed index field content found foundContent kind]
  | true =>
      obtain ⟨sizeField, sizeContent, number, prefixed, foundSize, sizeLength, announced, length, -⟩ :=
        message.exists_count wellFormed found foundContent kind
      have loaded : load block (ns.memOffset index - sizeField.elementsz) sizeField.elementsz =
          some sizeContent := by
        obtain ⟨before, rfl, -⟩ := prefixed.exists_succ
        have offset := prefixed.memOffset_eq
        have inFront := held before sizeContent (by omega) (by simpa using foundSize)
        rw [offset, Nat.add_sub_cancel]
        rw [sizeLength] at inFront
        simpa using inFront
      have bound := wellFormed.limit_lt found
      have limit : field.elementsz * number ≤ field.elementsz * kMaxBufCount :=
        Nat.mul_le_mul_left _ (announcedCount_le announced).1
      rw [NetStruct.wireSz_of_variable found kind,
        NetStruct.WellFormed.announced_eq found prefixed loaded, announced, length, countOrMax]
      exact Nat.mod_eq_of_lt (by unfold sizeMod; omega)

/-- A buffer that agrees in front of a field holds the same fields in front
of it. -/
theorem HeldUpTo.congr (held : message.HeldUpTo count block) (wellFormed : ns.WellFormed)
    (inner : count < ns.size) {other : Bytes}
    (same : other.take (ns.memOffset count) = block.take (ns.memOffset count))
    (inside : ns.memOffset count ≤ block.length) (insideOther : ns.memOffset count ≤ other.length) :
    message.HeldUpTo count other := by
  intro index content before found
  have ends := message.memOffset_add_length_le wellFormed found (by omega)
  have below : ns.memOffset (index + 1) ≤ ns.memOffset count := ns.memOffset_mono (by omega)
  rw [load_congr_take same (ends.trans below) insideOther inside]
  exact held index content before found

/-- In a run of fixed fields memory and wire offsets grow together. -/
theorem wireOffset_add (message : Message ns) {first last : Nat}
    (between : ns.FixedBetween first last) (le : first ≤ last) (inside : last ≤ ns.size) :
    message.wireOffset last + ns.memOffset first =
      message.wireOffset first + ns.memOffset last := by
  refine boundary_add le (fun index ge lt => ?_) (fun index _ _ => ns.memOffset_mono (by omega))
  obtain ⟨field, found⟩ := ns.exists_field (show index < ns.size by omega)
  obtain ⟨content, foundContent⟩ := message.exists_content (show index < ns.size by omega)
  have length := message.fixed index field content found foundContent
    (between index field ge lt found)
  have offset := NetStruct.memOffset_succ found
  exact ⟨content, foundContent, by omega⟩

/-- Bytes of the wire stored at the start of a run of fixed fields extend
what is held up to the field they end in. -/
theorem HeldUpTo.store_run {first last : Nat}
    (between : ns.FixedBetween first last) (inside : last ≤ ns.size) {stored cells : Bytes}
    (done : store block (ns.memOffset first) cells = some stored)
    (room : ns.memOffset first + cells.length ≤ block.length)
    (filled : ns.memOffset last ≤ ns.memOffset first + cells.length)
    (segment : cells = (message.wire.drop (message.wireOffset first)).take cells.length)
    (front : message.HeldUpTo first stored) : message.HeldUpTo last stored := by
  intro index content before found
  rcases Nat.lt_or_ge index first with earlier | later
  · exact front index content earlier found
  · obtain ⟨field, foundField⟩ := message.exists_field found
    have length := message.fixed index field content foundField found
      (between index field later before foundField)
    have wirePlace := message.wireOffset_add
      (fun other field ge lt => between other field ge (by omega)) later (by omega)
    have nextOffset := NetStruct.memOffset_succ foundField
    have ends : ns.memOffset (index + 1) ≤ ns.memOffset last := ns.memOffset_mono (by omega)
    have starts : ns.memOffset first ≤ ns.memOffset index := ns.memOffset_mono later
    have loaded := load_store_within (ns.memOffset index - ns.memOffset first) content.length
      done room (by omega)
    rw [Nat.add_sub_cancel' starts] at loaded
    have place : message.wireOffset first + (ns.memOffset index - ns.memOffset first) =
        message.wireOffset index := by omega
    have rest := flatten_drop_cons found
    rw [loaded, segment, List.drop_take, List.take_take, min_eq_left (by omega), List.drop_drop,
      place, wire, wireOffset, rest, List.take_left]

theorem HeldUpTo.store_field (held : message.HeldUpTo index block) (wellFormed : ns.WellFormed)
    (found : message.contents[index]? = some content) {stored : Bytes}
    (inside : ns.memOffset index + content.length ≤ block.length)
    (done : store block (ns.memOffset index) content = some stored) :
    message.HeldUpTo (index + 1) stored := by
  intro other otherContent before foundOther
  rcases Nat.eq_or_lt_of_le (Nat.le_of_lt_succ before) with rfl | earlier
  · cases found.symm.trans foundOther
    exact load_store_same done inside
  · obtain ⟨field, foundField⟩ := message.exists_field found
    have within := ns.lt_size_of_found foundField
    have front : message.HeldUpTo index stored :=
      held.congr wellFormed within (store_take done (le_refl _)) (by omega)
        (by rw [store_length done]; omega)
    exact front other otherContent earlier foundOther

theorem holds_iff (wellFormed : ns.WellFormed) {image : Bytes} :
    message.Holds image ↔ message.HeldUpTo ns.size image := by
  have covers := message.covers
  refine ⟨fun holds index content _ found => ?_, fun held index content found => ?_⟩
  · rw [← wellFormed.netStructCalcsz_eq]
    exact holds index content found
  · obtain ⟨field, foundField⟩ := message.exists_field found
    rw [wellFormed.netStructCalcsz_eq]
    exact held index content (ns.lt_size_of_found foundField) found

end Message

end ThemeSrv
