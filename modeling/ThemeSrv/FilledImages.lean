import ThemeSrv.ReaderBounds
import ThemeSrv.SessionHandlers

/-!
# Images that are encoded

An image in which every length prefix announces what is really behind it
starts with a message, whatever else it holds.  `enqueue_write` encodes such
an image and never stops at it.
-/

namespace ThemeSrv

open AllocatedBlock ByteString ConcatenatedParts KeystreamCipher

namespace NetStruct

/-- The elements that a length prefix of the image announces are in it. -/
structure Filled (ns : NetStruct) (block : Bytes) : Prop where
  covers : ns.memTotal ≤ block.length
  counted : ∀ (index : Nat) (field : NetField), ns.fields[index]? = some field →
    field.type.isVariable = true → ∃ count, ns.announced block index = some count ∧
      ns.memOffset index + field.elementsz * count ≤ block.length ∧
      (field.type.isBuffer = false → count ≤ field.count)

/-- The fields an image holds. -/
def fieldsOf (ns : NetStruct) (block : Bytes) : List Bytes :=
  (List.range ns.size).map fun index =>
    (block.drop (ns.memOffset index)).take (ns.wireSz block index)

variable {ns : NetStruct} {block : Bytes}

theorem fieldsOf_found {index : Nat} {content : Bytes}
    (found : (ns.fieldsOf block)[index]? = some content) :
    content = (block.drop (ns.memOffset index)).take (ns.wireSz block index) := by
  rw [fieldsOf, List.getElem?_map, Option.map_eq_some_iff] at found
  obtain ⟨place, inRange, rfl⟩ := found
  obtain ⟨inside, same⟩ := List.getElem?_eq_some_iff.mp inRange
  rw [List.getElem_range] at same
  rw [same]

theorem Filled.wireSz_eq (filled : ns.Filled block) (wellFormed : ns.WellFormed) {index : Nat}
    {field : NetField} (found : ns.fields[index]? = some field)
    (variableSize : field.type.isVariable = true) :
    ∃ count, ns.announced block index = some count ∧
      ns.wireSz block index = field.elementsz * count := by
  obtain ⟨count, announced, -, -⟩ := filled.counted index field found variableSize
  have bound := wellFormed.limit_lt found
  have limit : field.elementsz * count ≤ field.elementsz * kMaxBufCount :=
    Nat.mul_le_mul_left _ (announced_le announced)
  refine ⟨count, announced, ?_⟩
  rw [NetStruct.wireSz_of_variable found variableSize, announced, countOrMax]
  exact Nat.mod_eq_of_lt (by unfold sizeMod; omega)

/-- All fields of a filled image are in it. -/
theorem Filled.inside (filled : ns.Filled block) (wellFormed : ns.WellFormed) {index : Nat}
    (within : index < ns.size) : ns.memOffset index + ns.wireSz block index ≤ block.length := by
  obtain ⟨field, found⟩ := ns.exists_field within
  cases kind : field.type.isVariable with
  | false =>
      have next := NetStruct.memOffset_succ found
      have below := ns.memOffset_le_memTotal (index + 1)
      have covers := filled.covers
      rw [NetStruct.wireSz_of_fixed found kind]
      omega
  | true =>
      obtain ⟨count, announced, ends, -⟩ := filled.counted index field found kind
      obtain ⟨count', announced', size⟩ := filled.wireSz_eq wellFormed found kind
      cases announced.symm.trans announced'
      rw [size]
      exact ends

theorem Filled.content_length (filled : ns.Filled block) (wellFormed : ns.WellFormed) {index : Nat}
    {content : Bytes} (within : index < ns.size)
    (found : (ns.fieldsOf block)[index]? = some content) :
    content.length = ns.wireSz block index := by
  have inside := filled.inside wellFormed within
  rw [fieldsOf_found found, List.length_take, List.length_drop]
  omega

/-- The message in a filled image. -/
def Filled.message (filled : ns.Filled block) (wellFormed : ns.WellFormed) : Message ns where
  contents := ns.fieldsOf block
  covers := by simp [fieldsOf]
  fixed := by
    intro index field content found foundContent fixedSize
    rw [filled.content_length wellFormed (ns.lt_size_of_found found) foundContent,
      NetStruct.wireSz_of_fixed found fixedSize]
  counted := by
    intro index field sizeField content sizeContent found foundContent variableSize foundSize
      foundSizeContent
    have within := ns.lt_size_of_found found
    obtain ⟨count, announced, ends, limit⟩ := filled.counted (index + 1) field found variableSize
    obtain ⟨count', announced', size⟩ := filled.wireSz_eq wellFormed found variableSize
    cases announced.symm.trans announced'
    refine ⟨count, ?_, ?_, limit⟩
    · obtain ⟨prior, prefixed⟩ := wellFormed.prefixed found variableSize
      have same : prior = sizeField := Option.some.inj (prefixed.found.symm.trans foundSize)
      subst same
      have offset := prefixed.memOffset_eq
      rw [Nat.add_sub_cancel] at offset
      have inside := (ns.memOffset_le_memTotal (index + 1)).trans filled.covers
      have place : ns.memOffset (index + 1) - prior.elementsz = ns.memOffset index := by omega
      have loaded : load block (ns.memOffset (index + 1) - prior.elementsz) prior.elementsz =
          some sizeContent := by
        rw [fieldsOf_found foundSizeContent, NetStruct.wireSz_of_fixed foundSize prefixed.fixedSize,
          prefixed.memSize_eq, place]
        exact load_eq_some (by omega)
      rw [← WellFormed.announced_eq found prefixed loaded]
      exact announced
    · rw [filled.content_length wellFormed within foundContent, size]

theorem Filled.held (filled : ns.Filled block) (wellFormed : ns.WellFormed) :
    (filled.message wellFormed).HeldUpTo ns.size block := by
  intro index content within found
  have inside := filled.inside wellFormed within
  rw [filled.content_length wellFormed within found, load_eq_some inside, fieldsOf_found found]

/-- An image that is filled is encoded. -/
theorem Filled.encodeMessage (filled : ns.Filled block) (wellFormed : ns.WellFormed)
    (variableLast : ns.VariableLast) (short : ns.extent ≤ intMax) (encrypt : Context) :
    ∃ result, encodeMessage ns block encrypt = .ok result := by
  have front := variableLast.front_of_held (filled.held wellFormed)
  have below := (filled.message wellFormed).wireOffset_le_extent wellFormed (le_refl ns.size)
  rw [Message.wireOffset_size, NetStruct.size, List.take_length] at below
  exact ⟨_, variableLast.encodeMessage_eq wellFormed front (below.trans short)⟩

end NetStruct

end ThemeSrv
