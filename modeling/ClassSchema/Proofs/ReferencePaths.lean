import ClassSchema.Proofs.DocumentNames
import ClassSchema.Proofs.References

/-! # Where references lead

A reference within a document is read as a path of keys: its fragment is decoded, cut at slashes, and each
piece is unescaped. Every reference of a validation document is the one by the name of a class, written
without any encoding. It leads to the definition of that class exactly if the name stands for itself; any
other name is no fragment, leads nowhere, or leads to another place: another definition, or, with a slash in it, a
part of one, where validation is not followed.
-/

namespace ClassSchema

/-- The keys that a pointer stands for. -/
def pointerPath? : List Char → Option (List String)
  | [] => some []
  | '/' :: rest => some ((rest.splitOn '/').map fun piece => String.ofList (unescapedSegment piece))
  | _ => none

/-- The keys that a reference within a document stands for. -/
def referencePath? (reference : String) : Option (List String) :=
  match reference.toList with
  | '#' :: fragment =>
    if isFragment fragment then (percentDecoded? fragment).bind fun pointer => pointerPath? pointer.toList
    else none
  | _ => none

/-- What stands in data under a path of keys. -/
def Data.under? : Data → List String → Option Data
  | data, [] => some data
  | .map entries, key :: path =>
    match Table.get? entries key with
    | some data => data.under? path
    | none => none
  | _, _ :: _ => none

theorem utf8Size_of_isFragmentChar {c : Char} (fragment : isFragmentChar c = true) : c.utf8Size = 1 := by
  rw [Char.utf8Size_eq_one_iff]
  simp only [isFragmentChar, Bool.or_eq_true] at fragment
  rcases fragment with alphanumeric | listed
  · delta Char.isAlphanum Char.isAlpha Char.isUpper Char.isLower Char.isDigit at alphanumeric
    simp only [Bool.or_eq_true, Bool.and_eq_true, decide_eq_true_eq, ge_iff_le, UInt32.le_iff_toNat_le]
      at alphanumeric ⊢
    change (65 ≤ c.toNat ∧ c.toNat ≤ 90 ∨ 97 ≤ c.toNat ∧ c.toNat ≤ 122) ∨
      48 ≤ c.toNat ∧ c.toNat ≤ 57 at alphanumeric
    change c.toNat ≤ 127
    omega
  · have all : ("-._~!$&'()*+,;=:@/?".toList.all fun c => c.val ≤ 127) = true := by decide
    simpa using List.all_eq_true.mp all c (List.contains_iff_mem.mp listed)

theorem length_percentDecodedBytes {cs : List Char} (fragment : isFragment cs = true) :
    (percentDecodedBytes cs).length + 2 * cs.count '%' = cs.length := by
  fun_induction isFragment cs with
  | case1 => rfl
  | case2 high low rest ih =>
    simp only [Bool.and_eq_true, Option.isSome_iff_exists] at fragment
    obtain ⟨⟨⟨first, isHigh⟩, second, isLow⟩, others⟩ := fragment
    have notPercent {c : Char} {value : Nat} (digit : Text.hexValue? c = some value) : c ≠ '%' := by
      rintro rfl
      exact absurd digit nofun
    simp only [percentDecodedBytes, isHigh, isLow, List.length_cons, List.count_cons_self,
      List.count_cons_of_ne (notPercent isHigh), List.count_cons_of_ne (notPercent isLow)]
    have := ih others
    omega
  | case3 c rest notEncoded ih =>
    simp only [Bool.and_eq_true] at fragment
    have notPercent : c ≠ '%' := by
      rintro rfl
      exact absurd fragment.1 (by decide)
    rw [percentDecodedBytes.eq_3 c rest notEncoded, List.length_append, String.length_utf8EncodeChar,
      utf8Size_of_isFragmentChar fragment.1, List.count_cons_of_ne notPercent, List.length_cons]
    have := ih fragment.2
    omega

theorem length_unescapedSegment_le (cs : List Char) : (unescapedSegment cs).length ≤ cs.length := by
  fun_induction unescapedSegment cs <;> simp only [List.length_cons, List.length_nil] <;> omega

/-- The path of the reference by a name has the key of the definitions and then the pieces of the decoded
name. -/
theorem referencePath?_referenceText (name : String) :
    referencePath? (referenceText name) =
      if isFragment name.toList then
        (percentDecoded? name.toList).map fun text =>
          "$defs" :: (text.toList.splitOn '/').map fun piece => String.ofList (unescapedSegment piece)
      else none := by
  have chars : (referenceText name).toList = '#' :: ("/$defs/".toList ++ name.toList) := by
    rw [referenceText, String.toList_append]
    rfl
  have slashes (rest : List Char) :
      ("$defs".toList ++ '/' :: rest).splitOn '/' = "$defs".toList :: rest.splitOn '/' :=
    List.splitOn_append_cons_self_of_not_mem (by decide) rest
  have fragment : ("/$defs/".toList.all isFragmentChar) = true := by decide
  have unencoded : '%' ∉ "/$defs/".toList := by decide
  rw [referencePath?, chars]
  simp only [isFragment_append (List.all_eq_true.mp fragment), percentDecoded?_append unencoded]
  congr 1
  cases percentDecoded? name.toList with
  | none => rfl
  | some text =>
    simp only [Option.map_some, Option.bind_some, String.toList_ofList]
    change some ((("$defs".toList ++ '/' :: text.toList).splitOn '/').map _) = _
    rw [slashes, List.map_cons]
    rfl

theorem length_le_flatMap_encode (cs : List Char) : cs.length ≤ (cs.flatMap String.utf8EncodeChar).length := by
  induction cs with
  | nil => exact Nat.le_refl _
  | cons c rest ih =>
    have positive := c.utf8Size_pos
    rw [List.flatMap_cons, List.length_append, List.length_cons, String.length_utf8EncodeChar]
    omega

theorem isFragmentChar_of_isFragment {cs : List Char} (fragment : isFragment cs = true) (unencoded : '%' ∉ cs) :
    ∀ c ∈ cs, isFragmentChar c = true := by
  fun_induction isFragment cs with
  | case1 => simp
  | case2 => simp at unencoded
  | case3 c rest _ ih =>
    simp only [Bool.and_eq_true] at fragment
    exact List.forall_mem_cons.mpr ⟨fragment.1, ih fragment.2 (List.not_mem_of_not_mem_cons unencoded)⟩

theorem not_mem_of_splitOn_eq_singleton {separator : Char} {cs piece : List Char}
    (whole : cs.splitOn separator = [piece]) : separator ∉ cs := by
  intro inside
  obtain ⟨before, after, rfl⟩ := List.append_of_mem inside
  rw [List.splitOn_append_cons_self] at whole
  have first := List.length_pos_of_ne_nil (List.splitOn_ne_nil separator before)
  have second := List.length_pos_of_ne_nil (List.splitOn_ne_nil separator after)
  have one := congrArg List.length whole
  rw [List.length_append, List.length_singleton] at one
  omega

/-- A name that is read back from its reference as it stands has nothing encoded in it: decoding and
unescaping only ever shorten. -/
theorem percent_not_mem_of_unescapedSegment {name text : String} (fragment : isFragment name.toList = true)
    (decoded : percentDecoded? name.toList = some text)
    (same : unescapedSegment text.toList = name.toList) : '%' ∉ name.toList := by
  have shorter := length_percentDecodedBytes fragment
  have bytes : text.toList.length ≤ (percentDecodedBytes name.toList).length := by
    rw [percentDecoded?_eq_some_iff.mp decoded]
    exact length_le_flatMap_encode text.toList
  have unescaped := length_unescapedSegment_le text.toList
  rw [same] at unescaped
  rw [← List.count_eq_zero]
  omega

/-- The reference by a name leads to the definition of that name exactly if the name stands for itself. -/
theorem referencePath?_referenceText_eq_iff (name : String) :
    referencePath? (referenceText name) = some ["$defs", name] ↔ IsDirectName name := by
  rw [referencePath?_referenceText]
  constructor
  · intro leads
    split at leads
    · rename_i fragment
      obtain ⟨text, decoded, path⟩ := Option.map_eq_some_iff.mp leads
      obtain ⟨piece, pieces, named⟩ := List.map_eq_singleton_iff.mp (List.cons.inj path).2
      have whole : text.toList = piece := by
        have joined : ['/'].intercalate (text.toList.splitOn '/') = text.toList := List.intercalate_splitOn '/'
        rw [pieces] at joined
        simpa using joined.symm
      have same : unescapedSegment text.toList = name.toList := by
        rw [whole, ← named, String.toList_ofList]
      have unencoded := percent_not_mem_of_unescapedSegment fragment decoded same
      obtain rfl : name = text := by
        rw [percentDecoded?_of_not_mem unencoded, String.ofList_toList] at decoded
        exact Option.some.inj decoded
      exact {
        fragment := isFragmentChar_of_isFragment fragment unencoded
        segment := not_mem_of_splitOn_eq_singleton pieces
        unescaped := same }
    · cases leads
  · intro direct
    rw [if_pos (isFragment_of_forall direct.fragment), percentDecoded?_of_not_mem direct.percent_not_mem,
      Option.map_some, String.toList_ofList, List.splitOn_eq_singleton direct.segment, List.map_singleton,
      direct.unescaped, String.ofList_toList]

/-- The reference that an entry of a map gives, if it is one. -/
def Data.referenceUnder (key : String) : Data → List String
  | .text reference => if key = "$ref" then [reference] else []
  | _ => []

mutual

/-- The references in data, at any depth. -/
def Data.references : Data → List String
  | .map entries => entriesReferences entries
  | .list items => itemsReferences items
  | _ => []

/-- The references in the items of a list. -/
def Data.itemsReferences : List Data → List String
  | [] => []
  | item :: rest => references item ++ itemsReferences rest

/-- The references in the entries of a map. -/
def Data.entriesReferences : List (String × Data) → List String
  | [] => []
  | (key, data) :: rest => referenceUnder key data ++ references data ++ entriesReferences rest

end

namespace Data

theorem referenceUnder_of_ne {key : String} (notReference : key ≠ "$ref") (data : Data) :
    referenceUnder key data = [] := by
  cases data with
  | text reference => exact if_neg notReference
  | _ => rfl

/-- An entry under another key than that of references has the references of its value. -/
theorem entriesReferences_cons_of_ne {key : String} (notReference : key ≠ "$ref") (data : Data)
    (rest : List (String × Data)) :
    entriesReferences ((key, data) :: rest) = data.references ++ entriesReferences rest := by
  rw [entriesReferences, referenceUnder_of_ne notReference, List.nil_append]

theorem entriesReferences_append (front back : List (String × Data)) :
    entriesReferences (front ++ back) = entriesReferences front ++ entriesReferences back := by
  induction front with
  | nil => rfl
  | cons entry rest ih => simp only [List.cons_append, entriesReferences, ih, List.append_assoc]

theorem itemsReferences_texts (texts : List String) : itemsReferences (texts.map .text) = [] := by
  induction texts with
  | nil => rfl
  | cons text rest ih => simp only [List.map_cons, itemsReferences, references, ih, List.append_nil]

theorem entriesReferences_optionalMember {key : String} (notReference : key ≠ "$ref")
    (text? : Option String) : entriesReferences (optionalMember key text?) = [] := by
  cases text? with
  | none => rfl
  | some text => exact entriesReferences_cons_of_ne notReference _ _

end Data

open Data

theorem JsonType.references_toData (type : JsonType) (nullable : Bool) :
    (type.toData nullable).references = [] := by
  cases nullable <;> rfl

theorem ScalarRule.references_entries (rule : ScalarRule) (nullable : Bool) :
    entriesReferences (rule.entries nullable) = [] := by
  rw [entries, entriesReferences_cons_of_ne (by decide), JsonType.references_toData, entriesReferences_append,
    entriesReferences_optionalMember (by decide)]
  split <;> rfl

theorem Range.references_schemaEntries (range : Range) :
    entriesReferences range.schemaEntries = range.className?.toList.map referenceText := by
  cases range with
  | scalar kind => exact ScalarRule.references_entries kind.rule false
  | instanceOf className => rfl

theorem ValueConstraint.references_entries (constraint : ValueConstraint) :
    entriesReferences constraint.entries = constraint.range.className?.toList.map referenceText := by
  obtain ⟨range, multivalued, required⟩ := constraint
  cases multivalued with
  | true =>
    simp only [entries, if_true, entriesReferences_append]
    rw [entriesReferences_cons_of_ne (by decide), entriesReferences_cons_of_ne (by decide),
      JsonType.references_toData, references, Range.references_schemaEntries]
    cases required <;> simp [entriesReferences, referenceUnder, references]
  | false =>
    cases range with
    | scalar kind => exact ScalarRule.references_entries kind.rule _
    | instanceOf className => cases required <;> rfl

/-- A property refers to the class of its range. -/
theorem PropertyConstraint.references_toData (property : PropertyConstraint) :
    property.toData.references = property.range.className?.toList.map referenceText := by
  rw [toData, references, entriesReferences_append, ValueConstraint.references_entries,
    entriesReferences_optionalMember (by decide), List.append_nil]

/-- Values that are maps refer to what they refer to, whatever their keys are. -/
theorem Data.entriesReferences_map {α : Type} (key : α → String) (value : α → Data)
    (isMap : ∀ item, ∃ entries, value item = .map entries) (items : List α) :
    entriesReferences (items.map fun item => (key item, value item)) =
      items.flatMap fun item => (value item).references := by
  induction items with
  | nil => rfl
  | cons item rest ih =>
    obtain ⟨entries, same⟩ := isMap item
    rw [List.map_cons, entriesReferences, ih, List.flatMap_cons, same]
    rfl

/-- A definition refers to the classes of its properties. -/
theorem ClassConstraints.references_toData (constraints : ClassConstraints) :
    constraints.toData.references = constraints.classNames.map referenceText := by
  have properties :
      entriesReferences (constraints.properties.map fun property => (property.name, property.toData)) =
        constraints.classNames.map referenceText := by
    rw [entriesReferences_map PropertyConstraint.name PropertyConstraint.toData fun property => ⟨_, rfl⟩]
    simp only [PropertyConstraint.references_toData, classNames, List.filterMap_eq_flatMap_toList,
      List.map_flatMap]
  have required : entriesReferences (if constraints.requiredNames.isEmpty then []
      else [("required", .list (constraints.requiredNames.map .text))]) = [] := by
    split
    · rfl
    · rw [entriesReferences_cons_of_ne (by decide), references, itemsReferences_texts]
      rfl
  rw [toData, references, entriesReferences_append, entriesReferences_append, entriesReferences_append,
    entriesReferences_append, required, entriesReferences_optionalMember (by decide),
    entriesReferences_cons_of_ne (by decide), entriesReferences_cons_of_ne (by decide), references, properties]
  simp [entriesReferences, referenceUnder, references, JsonType.references_toData]

namespace ValidationDocument

/-- The definitions refer to the classes of all properties. -/
theorem references_definitions (document : ValidationDocument) :
    document.definitions.references =
      document.classes.flatMap fun entry => entry.2.classNames.map referenceText := by
  have maps := entriesReferences_map Prod.fst (fun entry => entry.2.toData) (fun entry => ⟨_, rfl⟩)
    document.classes
  simp only [ClassConstraints.references_toData] at maps
  exact maps

theorem entriesReferences_defs (document : ValidationDocument) :
    entriesReferences [("$defs", document.definitions)] = document.definitions.references := by
  rw [entriesReferences_cons_of_ne (by decide), entriesReferences, List.append_nil]

theorem references_toData (document : ValidationDocument) :
    document.toData.references = document.definitions.references := by
  rw [toData, references, entriesReferences_append, entriesReferences_append,
    entriesReferences_optionalMember (by decide), entriesReferences_defs]
  rfl

theorem forClass?_isSome_iff (document : ValidationDocument) (name : String) :
    (document.forClass? name).isSome = true ↔ (document.class? name).isSome = true := by
  unfold forClass?
  split <;> simp [*]

/-- The document for a class refers to that class besides. -/
theorem references_forClass? {document : ValidationDocument} {name : String} {data : Data}
    (generated : document.forClass? name = some data) :
    data.references = referenceText name :: document.definitions.references := by
  unfold forClass? at generated
  split at generated <;> cases generated
  rw [← entriesReferences_defs]
  rfl

theorem under?_definitions (document : ValidationDocument) (name : String) :
    document.definitions.under? [name] = (document.class? name).map ClassConstraints.toData := by
  have found : Table.get? (document.classes.map fun entry => (entry.1, entry.2.toData)) name =
      (document.class? name).map ClassConstraints.toData :=
    Table.get?_map ClassConstraints.toData document.classes name
  change (match Table.get? (document.classes.map fun entry => (entry.1, entry.2.toData)) name with
    | some data => data.under? []
    | none => none) = _
  rw [found]
  cases document.class? name <;> rfl

/-- The definition of a class stands under its name in the document. -/
theorem under?_toData (document : ValidationDocument) (name : String) :
    document.toData.under? ["$defs", name] = (document.class? name).map ClassConstraints.toData := by
  rw [← under?_definitions]
  unfold toData
  cases document.description? <;> rfl

/-- The definition of a class stands under its name in the document for any class. -/
theorem under?_forClass? {document : ValidationDocument} {root : String} {data : Data}
    (generated : document.forClass? root = some data) (name : String) :
    data.under? ["$defs", name] = (document.class? name).map ClassConstraints.toData := by
  unfold forClass? at generated
  split at generated <;> cases generated
  exact document.under?_definitions name

/-- The reference by a name leads to a definition exactly if its path is the one of that definition. -/
theorem target?_eq_some_iff (document : ValidationDocument) (name : String) (constraints : ClassConstraints) :
    document.target? name = some constraints ↔
      ∃ key, referencePath? (referenceText name) = some ["$defs", key] ∧
        document.class? key = some constraints := by
  rw [target?, referencePath?_referenceText]
  split
  · cases percentDecoded? name.toList with
    | none => simp
    | some text =>
      simp only [List.contains_iff_mem]
      split
      · rename_i slash
        simp only [false_iff, reduceCtorEq, Option.map_some, Option.some.injEq, List.cons.injEq, true_and]
        rintro ⟨key, one, _⟩
        obtain ⟨piece, pieces, _⟩ := List.map_eq_singleton_iff.mp one
        exact not_mem_of_splitOn_eq_singleton pieces slash
      · rename_i noSlash
        simp [List.splitOn_eq_singleton noSlash]
  · simp

/-- Data cannot be held against a known class only if references that are met from there are not linked. -/
theorem isBuildable_of_validate_unlinked {document : ValidationDocument} {formats : Bool} {name other : String}
    {data : Data} (failure : document.validate formats name data = .error (.unlinked other)) :
    (document.class? name).isSome = true ∧ document.isBuildable name = false := by
  unfold validate at failure
  split at failure
  · cases failure
  · rename_i defined
    split at failure
    · rename_i unbuildable
      exact ⟨by simpa [Option.isSome_iff_ne_none] using defined, by simpa using unbuildable⟩
    · split at failure <;> cases failure

/-- The classes that definitions refer to are classes of the document. -/
theorem has_of_mem_classNames {document : Document} {validation : ValidationDocument}
    (success : ofDocument document = .ok validation) {entry : String × ClassConstraints}
    (member : entry ∈ validation.classes) {target : String} (refers : target ∈ entry.2.classNames) :
    document.classes.has target = true := by
  obtain ⟨resolver, resolved, success⟩ := bind_eq_ok_iff.mp success
  obtain ⟨classes, built, success⟩ := bind_eq_ok_iff.mp success
  cases success
  obtain ⟨⟨name, definition⟩, _, made⟩ := exists_of_mem_mapM built member
  obtain ⟨attributes, success, made⟩ := bind_eq_ok_iff.mp made
  cases made
  obtain ⟨property, isProperty, range⟩ := List.mem_filterMap.mp refers
  obtain ⟨result, isResult, rfl⟩ := List.mem_map.mp isProperty
  rw [← RangeResolver.document_of_ofDocument resolved]
  exact RangeResolver.has_of_resolveClass success isResult (Range.className?_eq_some_iff.mp range)

/-- Every reference of the definitions is the one by the name of a class. -/
theorem exists_of_mem_references {document : Document} {validation : ValidationDocument}
    (success : ofDocument document = .ok validation) {reference : String}
    (refers : reference ∈ validation.definitions.references) :
    ∃ name ∈ document.classes.keys, reference = referenceText name := by
  rw [references_definitions] at refers
  obtain ⟨entry, member, refers⟩ := List.mem_flatMap.mp refers
  obtain ⟨target, isTarget, rfl⟩ := List.mem_map.mp refers
  exact ⟨target, (Table.has_iff_mem_keys _ _).mp (has_of_mem_classNames success member isTarget), rfl⟩

end ValidationDocument

/-- Where a document compiles, every reference of its validation documents is the one by the name of a class,
whose definition stands in these documents under that name. The reference leads there exactly if the name
stands for itself. Validation goes where it leads if that is the definition of a class; a path of more keys, which a
name with a slash makes, it does not follow, although it may lead into a definition. If all class names stand for
themselves, validation never fails for a reference. -/
theorem Compilation.references_lead {settings : Settings} {document : Document} {compilation : Compilation}
    (compiled : ofDocument settings document = .ok compilation) :
    (∀ reference ∈ compilation.validation.toData.references,
      ∃ name ∈ document.classes.keys, reference = referenceText name) ∧
    (∀ root data, compilation.validation.forClass? root = some data → ∀ reference ∈ data.references,
      ∃ name ∈ document.classes.keys, reference = referenceText name) ∧
    (∀ name ∈ document.classes.keys, ∃ constraints, compilation.validation.class? name = some constraints ∧
      compilation.validation.toData.under? ["$defs", name] = some constraints.toData ∧
      ∀ root data, compilation.validation.forClass? root = some data →
        data.under? ["$defs", name] = some constraints.toData) ∧
    (∀ name, referencePath? (referenceText name) = some ["$defs", name] ↔ IsDirectName name) ∧
    (∀ name constraints, compilation.validation.target? name = some constraints ↔
      ∃ key, referencePath? (referenceText name) = some ["$defs", key] ∧
        compilation.validation.class? key = some constraints) ∧
    ((∀ name ∈ document.classes.keys, IsDirectName name) → ∀ formats name data other,
      compilation.validation.validate formats name data ≠ .error (.unlinked other)) := by
  obtain ⟨modelled, constrained⟩ := parts_of_ofDocument compiled
  have wellFormed := ObjectModel.wellFormed_of_ofDocument modelled
  have mirrors := ValidationDocument.class?_eq_constraints modelled constrained
  have isClass (name : String) : (compilation.model.class? name).isSome = true ↔ name ∈ document.classes.keys :=
    ObjectModel.class?_isSome_iff modelled name
  refine ⟨?_, ?_, ?_, referencePath?_referenceText_eq_iff, ValidationDocument.target?_eq_some_iff _, ?_⟩
  · intro reference refers
    rw [ValidationDocument.references_toData] at refers
    exact ValidationDocument.exists_of_mem_references constrained refers
  · intro root data generated reference refers
    rw [ValidationDocument.references_forClass? generated] at refers
    rcases List.mem_cons.mp refers with rfl | inDefinitions
    · have defined := (ValidationDocument.forClass?_isSome_iff _ _).mp (Option.isSome_of_eq_some generated)
      rw [mirrors, Option.isSome_map] at defined
      exact ⟨root, (isClass root).mp defined, rfl⟩
    · exact ValidationDocument.exists_of_mem_references constrained inDefinitions
  · intro name isName
    obtain ⟨classModel, found⟩ := Option.isSome_iff_exists.mp ((isClass name).mpr isName)
    have defined : compilation.validation.class? name = some classModel.constraints := by
      rw [mirrors, found, Option.map_some]
    refine ⟨classModel.constraints, defined, ?_, ?_⟩
    · rw [ValidationDocument.under?_toData, defined, Option.map_some]
    · intro root data generated
      rw [ValidationDocument.under?_forClass? generated, defined, Option.map_some]
  · intro direct formats name data other failure
    obtain ⟨defined, unbuildable⟩ := ValidationDocument.isBuildable_of_validate_unlinked failure
    rw [mirrors, Option.isSome_map] at defined
    have buildable := ValidationDocument.isBuildable_of_isDirectName wellFormed mirrors
      (fun known isKnown => direct known ((isClass known).mp isKnown)) defined
    exact absurd buildable (Bool.eq_false_iff.mp unbuildable)

theorem Compilation.references_lead_people : ∃ compilation, ofDocument {} .people = .ok compilation ∧
    (∀ name ∈ Document.people.classes.keys, IsDirectName name) ∧
    referencePath? (referenceText "Person") = some ["$defs", "Person"] ∧
    ∀ formats name data other, compilation.validation.validate formats name data ≠ .error (.unlinked other) := by
  obtain ⟨compilation, compiled, _⟩ := exists_people
  have plain : ∀ name ∈ Document.people.classes.keys, isPlainName name = true := by decide
  have direct : ∀ name ∈ Document.people.classes.keys, IsDirectName name :=
    fun name isName => .of_plain (plain name isName)
  obtain ⟨_, _, _, leads, _, linked⟩ := references_lead compiled
  exact ⟨compilation, compiled, direct, (leads "Person").mpr (direct "Person" (by decide)), linked direct⟩

/-- A schema with a class whose name is another one's, percent-encoded, and a class with a blank in its name. -/
def Document.encodedNamesText : String :=
  "{id: s, name: s, classes: {AB: , A%42: , Odd Thing: }}"

/-- The document of that schema. -/
def Document.encodedNames : Document :=
  { blank with
    id := "s"
    name := "s"
    classes := [("AB", ⟨"AB", none, none, none, []⟩), ("A%42", ⟨"A%42", none, none, none, []⟩),
      ("Odd Thing", ⟨"Odd Thing", none, none, none, []⟩)] }

/-- The reference by a class name may lead to the definition of another class, or nowhere. -/
theorem Compilation.exists_reference_astray : ∃ compilation,
    Document.parse Document.encodedNamesText = .ok .encodedNames ∧
    ofDocument {} .encodedNames = .ok compilation ∧
    (∃ data, compilation.validation.forClass? "A%42" = some data ∧ referenceText "A%42" ∈ data.references) ∧
    referencePath? (referenceText "A%42") = some ["$defs", "AB"] ∧
    ∀ formats data, compilation.validation.validate formats "Odd Thing" data = .error (.unlinked "Odd Thing") := by
  have parsed : Document.parse Document.encodedNamesText = .ok .encodedNames := by decide +kernel
  have success : (ofDocument {} .encodedNames).isOk = true := by decide +kernel
  have path : referencePath? (referenceText "A%42") = some ["$defs", "AB"] := by decide +kernel
  cases compiled : ofDocument {} .encodedNames with
  | error error => simp [compiled, Except.isOk, Except.toBool] at success
  | ok compilation =>
    obtain ⟨modelled, constrained⟩ := parts_of_ofDocument compiled
    have defined (name : String) (isName : name ∈ Document.encodedNames.classes.keys) :
        (compilation.validation.class? name).isSome = true := by
      rw [ValidationDocument.class?_eq_constraints modelled constrained, Option.isSome_map,
        ObjectModel.class?_isSome_iff modelled]
      exact isName
    obtain ⟨data, generated⟩ := Option.isSome_iff_exists.mp
      ((ValidationDocument.forClass?_isSome_iff _ "A%42").mpr (defined "A%42" (by decide)))
    refine ⟨compilation, parsed, rfl, ⟨data, generated, ?_⟩, path, ?_⟩
    · rw [ValidationDocument.references_forClass? generated]
      exact List.mem_cons_self
    · intro formats data
      have astray : compilation.validation.target? "Odd Thing" = none := if_neg (by decide)
      have isDefined := defined "Odd Thing" (by decide)
      rw [← Option.not_isNone, Bool.not_eq_true'] at isDefined
      simp [ValidationDocument.validate, isDefined, ValidationDocument.isBuildable, astray]

end ClassSchema
