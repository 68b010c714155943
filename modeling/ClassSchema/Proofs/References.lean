import ClassSchema.Proofs.FieldTables

/-! # References by names that stand for themselves

A name stands for itself in a reference if it is a fragment of one segment in which nothing is
percent-encoded or escaped. Then the reference leads to the definition under that very name, and a document
whose class names are all of this kind has no broken references. Names of ASCII letters, digits, underscores
and hyphens are.
-/

namespace ClassSchema

/-- Whether a name stands for itself in a reference. -/
structure IsDirectName (name : String) : Prop where
  fragment : ∀ c ∈ name.toList, isFragmentChar c = true
  /-- The name is one segment of a pointer. -/
  segment : '/' ∉ name.toList
  unescaped : unescapedSegment name.toList = name.toList

theorem isFragment_append {front : List Char} (fragment : ∀ c ∈ front, isFragmentChar c = true)
    (cs : List Char) : isFragment (front ++ cs) = isFragment cs := by
  induction front with
  | nil => rfl
  | cons c rest ih =>
    obtain ⟨first, others⟩ := List.forall_mem_cons.mp fragment
    have notPercent : c ≠ '%' := by
      rintro rfl
      exact absurd first (by decide)
    have notEncoded (high low : Char) (others : List Char) :
        c = '%' → rest ++ cs = high :: low :: others → False :=
      fun encoded _ => notPercent encoded
    rw [List.cons_append, isFragment.eq_3 c _ notEncoded, first, ih others, Bool.true_and]

theorem isFragment_of_forall {cs : List Char} (fragment : ∀ c ∈ cs, isFragmentChar c = true) :
    isFragment cs = true := by
  rw [← List.append_nil cs, isFragment_append fragment]
  rfl

theorem toByteArray_eq_mk (bytes : List UInt8) : bytes.toByteArray = ByteArray.mk bytes.toArray := by
  rw [ByteArray.ext_iff, List.data_toByteArray]

/-- Bytes that encode characters are decoded to these characters. -/
theorem fromUTF8?_flatMap_encode (cs : List Char) :
    String.fromUTF8? (ByteArray.mk (cs.flatMap String.utf8EncodeChar).toArray) = some (String.ofList cs) := by
  have bytes : ByteArray.mk (cs.flatMap String.utf8EncodeChar).toArray = cs.utf8Encode := by
    rw [List.utf8Encode, toByteArray_eq_mk]
  rw [bytes, String.fromUTF8?, dif_pos ByteArray.isValidUTF8_utf8Encode]
  rfl

/-- Percent-encoded bytes are decoded to a text exactly if they encode it. -/
theorem percentDecoded?_eq_some_iff {cs : List Char} {text : String} :
    percentDecoded? cs = some text ↔ percentDecodedBytes cs = text.toList.flatMap String.utf8EncodeChar := by
  constructor
  · intro decoded
    have encoded : text.toByteArray = ByteArray.mk (percentDecodedBytes cs).toArray := by
      unfold percentDecoded? String.fromUTF8? at decoded
      split at decoded <;> cases decoded
      rfl
    rw [← String.utf8Encode_toList, List.utf8Encode, toByteArray_eq_mk, ByteArray.mk.injEq] at encoded
    simpa using encoded.symm
  · intro bytes
    rw [percentDecoded?, bytes, fromUTF8?_flatMap_encode, String.ofList_toList]

/-- Bytes are decoded to some text exactly if they are valid. -/
theorem percentDecoded?_isSome_iff (cs : List Char) :
    (percentDecoded? cs).isSome = true ↔ (percentDecodedBytes cs).toByteArray.IsValidUTF8 := by
  rw [percentDecoded?, String.fromUTF8?, toByteArray_eq_mk]
  split <;> simp [*]

theorem percentDecoded?_cons {c : Char} (notPercent : c ≠ '%') (cs : List Char) :
    percentDecoded? (c :: cs) = (percentDecoded? cs).map fun text => String.ofList (c :: text.toList) := by
  have bytes : percentDecodedBytes (c :: cs) = String.utf8EncodeChar c ++ percentDecodedBytes cs :=
    percentDecodedBytes.eq_3 c cs (by rintro high low others rfl; exact absurd rfl notPercent)
  cases decoded : percentDecoded? cs with
  | some text =>
    rw [Option.map_some, percentDecoded?_eq_some_iff, bytes, percentDecoded?_eq_some_iff.mp decoded,
      String.toList_ofList, List.flatMap_cons]
  | none =>
    -- The bytes are invalid, and a character encoded in front of them does not change that.
    have invalid : ¬ (percentDecoded? cs).isSome = true := by simp [decoded]
    rw [percentDecoded?_isSome_iff, ← ByteArray.isValidUTF8_utf8Encode_singleton_append_iff (c := c),
      List.utf8Encode_singleton, ← List.toByteArray_append, ← bytes, ← percentDecoded?_isSome_iff,
      Option.not_isSome_iff_eq_none] at invalid
    exact invalid

theorem percentDecoded?_append {front : List Char} (unencoded : '%' ∉ front) (cs : List Char) :
    percentDecoded? (front ++ cs) =
      (percentDecoded? cs).map fun text => String.ofList (front ++ text.toList) := by
  induction front with
  | nil => simp
  | cons c rest ih =>
    obtain ⟨notPercent, others⟩ := List.ne_and_not_mem_of_not_mem_cons unencoded
    rw [List.cons_append, percentDecoded?_cons (Ne.symm notPercent), ih others, Option.map_map]
    simp only [Function.comp_def, String.toList_ofList, List.cons_append]

theorem percentDecoded?_of_not_mem {cs : List Char} (unencoded : '%' ∉ cs) :
    percentDecoded? cs = some (String.ofList cs) := by
  have empty : percentDecoded? [] = some "" := percentDecoded?_eq_some_iff.mpr rfl
  rw [← List.append_nil cs, percentDecoded?_append unencoded, empty]
  rfl

theorem IsDirectName.percent_not_mem {name : String} (direct : IsDirectName name) : '%' ∉ name.toList :=
  fun inside => absurd (direct.fragment '%' inside) (by decide)

/-- Whether a name has only ASCII letters, digits, underscores and hyphens. -/
def isPlainName (name : String) : Bool :=
  name.toList.all fun c => c.isAlphanum || c == '_' || c == '-'

private theorem plain_char {c : Char} (plain : (c.isAlphanum || c == '_' || c == '-') = true) :
    isFragmentChar c = true ∧ c ≠ '/' ∧ c ≠ '~' := by
  have others : ('/'.isAlphanum || '/' == '_' || '/' == '-') = false ∧
      ('~'.isAlphanum || '~' == '_' || '~' == '-') = false := by decide
  refine ⟨?_, ?_, ?_⟩
  · simp only [Bool.or_eq_true, beq_iff_eq] at plain
    rcases plain with (alphanumeric | rfl) | rfl
    · simp only [isFragmentChar, alphanumeric, Bool.true_or]
    · decide
    · decide
  · rintro rfl
    exact absurd plain (Bool.eq_false_iff.mp others.1)
  · rintro rfl
    exact absurd plain (Bool.eq_false_iff.mp others.2)

theorem unescapedSegment_of_not_mem {cs : List Char} (noTilde : '~' ∉ cs) : unescapedSegment cs = cs := by
  induction cs with
  | nil => rfl
  | cons c rest ih =>
    obtain ⟨notTilde, others⟩ := List.ne_and_not_mem_of_not_mem_cons noTilde
    rw [unescapedSegment.eq_5 c rest (by rintro others rfl; exact absurd rfl notTilde)
      (by rintro others rfl; exact absurd rfl notTilde)
      (by rintro d others rfl; exact absurd rfl notTilde), ih others]

theorem IsDirectName.of_plain {name : String} (plain : isPlainName name = true) : IsDirectName name := by
  have each (c : Char) (inside : c ∈ name.toList) := plain_char (List.all_eq_true.mp plain c inside)
  exact {
    fragment := fun c inside => (each c inside).1
    segment := fun inside => (each '/' inside).2.1 rfl
    unescaped := unescapedSegment_of_not_mem fun inside => (each '~' inside).2.2 rfl }

theorem Range.className?_eq_some_iff {range : Range} {className : String} :
    range.className? = some className ↔ range = .instanceOf className := by
  cases range <;> simp [Range.className?]

namespace ValidationDocument

/-- The reference by a name that stands for itself leads to the definition under that name. -/
theorem target?_of_isDirectName (document : ValidationDocument) {name : String} (direct : IsDirectName name) :
    document.target? name = document.class? name := by
  have noSlash : name.toList.contains '/' = false := by
    rw [Bool.eq_false_iff]
    exact fun slash => direct.segment (List.contains_iff_mem.mp slash)
  simp only [target?, isFragment_of_forall direct.fragment, if_true,
    percentDecoded?_of_not_mem direct.percent_not_mem, String.ofList_toList, noSlash, Bool.false_eq_true,
    if_false, direct.unescaped]

/-- The reference by a plain name leads to the definition under that name. -/
theorem target?_of_plain (document : ValidationDocument) {name : String}
    (plain : isPlainName name = true) : document.target? name = document.class? name :=
  document.target?_of_isDirectName (.of_plain plain)

/-- Where class names stand for themselves and every class that is referred to is defined, references are
linked from every class on. -/
theorem isBuildable_of_isDirectName {document : ValidationDocument} {model : ObjectModel}
    (wellFormed : model.WellFormed)
    (same : ∀ name, document.class? name = (model.class? name).map ClassModel.constraints)
    (direct : ∀ name, (model.class? name).isSome = true → IsDirectName name) {name : String}
    (known : (model.class? name).isSome = true) : document.isBuildable name = true := by
  have linked (other : String) : document.isLinked other = true := by
    simp only [isLinked, same]
    cases found : model.class? other with
    | none => rfl
    | some classModel =>
      simp only [Option.map_some, List.all_eq_true]
      intro target member
      obtain ⟨property, isProperty, range⟩ := List.mem_filterMap.mp member
      obtain ⟨field, isField, rfl⟩ := List.mem_map.mp isProperty
      have defined := wellFormed.closed found isField (Range.className?_eq_some_iff.mp range)
      rw [document.target?_of_isDirectName (direct target defined), same, Option.isSome_map]
      exact defined
  obtain ⟨classModel, found⟩ := Option.isSome_iff_exists.mp known
  simp only [isBuildable, document.target?_of_isDirectName (direct name known), same, found, Option.map_some,
    List.all_eq_true]
  exact fun other _ => linked other

/-- Where the class names are plain and every class that is referred to is defined, references are linked
from every class on. -/
theorem isBuildable_of_plain {document : ValidationDocument} {model : ObjectModel}
    (wellFormed : model.WellFormed)
    (same : ∀ name, document.class? name = (model.class? name).map ClassModel.constraints)
    (plain : ∀ name, (model.class? name).isSome = true → isPlainName name = true) {name : String}
    (known : (model.class? name).isSome = true) : document.isBuildable name = true :=
  isBuildable_of_isDirectName wellFormed same (fun other isClass => .of_plain (plain other isClass)) known

end ValidationDocument

end ClassSchema
