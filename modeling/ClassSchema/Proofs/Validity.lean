import ClassSchema.Proofs.FieldTables

/-! # Valid data

What a validation document accepts, as a relation that follows the field tables. It asks of scalars what the
rules of their kinds say, in whatever way formats are tested, and it needs only those references that are met
from a class on. The reading of an object that lists what is broken and the one that only decides both accept
exactly this.
-/

namespace ClassSchema

namespace ObjectModel

/-- Whether data is valid where a constraint asks for it. -/
inductive Accepts (model : ObjectModel) (formats : Bool) : ValueConstraint → Data → Prop
  | null {range : Range} {multivalued : Bool} : Accepts model formats ⟨range, multivalued, false⟩ .null
  | scalar {kind : ScalarKind} {required : Bool} {data : Data}
      (met : kind.rule.messages? formats false data = some []) :
      Accepts model formats ⟨.scalar kind, false, required⟩ data
  | object {className : String} {required : Bool} {classModel : ClassModel} {entries : Table Data}
      (found : model.class? className = some classModel)
      (complete : ∀ field ∈ classModel.fields, field.required = true → entries.has field.name = true)
      (known : ∀ entry ∈ entries, (classModel.field? entry.1).isSome = true)
      (each : ∀ entry ∈ entries, ∀ field, classModel.field? entry.1 = some field →
        Accepts model formats field.constraint.toValueConstraint entry.2) :
      Accepts model formats ⟨.instanceOf className, false, required⟩ (.map entries)
  | list {range : Range} {required : Bool} {items : List Data} (given : required = true → items ≠ [])
      (each : ∀ item ∈ items, Accepts model formats range.single item) :
      Accepts model formats ⟨range, true, required⟩ (.list items)

end ObjectModel

theorem ClassModel.property?_constraints (model : ClassModel) (name : String) :
    model.constraints.property? name = (model.field? name).map Field.constraint := by
  simp only [ClassConstraints.property?, ClassModel.constraints, ClassModel.field?, List.find?_map]
  rfl

theorem ClassModel.requiredNames_constraints (model : ClassModel) :
    model.constraints.requiredNames =
      (model.fields.filter fun field => field.required).map Field.name := by
  simp only [ClassConstraints.requiredNames, ClassModel.constraints, List.filter_map, List.map_map]
  rfl

theorem ClassModel.required_all_iff (model : ClassModel) (entries : Table Data) :
    (model.fields.all fun field => !field.required || entries.has field.name) = true ↔
      ∀ field ∈ model.fields, field.required = true → entries.has field.name = true := by
  rw [List.all_eq_true]
  refine forall₂_congr fun field _ => ?_
  cases field.required <;> simp

/-- The required names are all there exactly if no required field is missing. -/
theorem ClassModel.requiredNames_all_iff (model : ClassModel) (entries : Table Data) :
    model.constraints.requiredNames.all entries.has = true ↔
      ∀ field ∈ model.fields, field.required = true → entries.has field.name = true := by
  rw [requiredNames_constraints, List.all_map, List.all_filter]
  exact model.required_all_iff entries

theorem ClassConstraints.missingViolations_eq_nil_iff (constraints : ClassConstraints) (path : String)
    (entries : Table Data) :
    constraints.missingViolations path entries = [] ↔
      constraints.requiredNames.all entries.has = true := by
  simp [missingViolations, List.filter_eq_nil_iff]

theorem ClassConstraints.unexpectedViolations_eq_nil_iff (constraints : ClassConstraints) (path : String)
    (entries : Table Data) :
    constraints.unexpectedViolations path entries = [] ↔
      ∀ entry ∈ entries, (constraints.property? entry.1).isSome = true := by
  have noneUnexpected : (entries.keys.filter fun key => (constraints.property? key).isNone) = [] ↔
      ∀ entry ∈ entries, (constraints.property? entry.1).isSome = true := by
    simp only [List.filter_eq_nil_iff, Table.keys, List.forall_mem_map]
    apply forall₂_congr
    intro entry _
    cases constraints.property? entry.1 <;> simp
  rw [← noneUnexpected]
  simp only [unexpectedViolations, List.isEmpty_iff]
  split <;> simp_all

namespace ScalarRule

/-- A rule is met by a scalar. -/
theorem isScalar_of_messages? {kind : ScalarKind} {formats nullable : Bool} {data : Data}
    (given : (nullable && data.isNull) = false) (met : kind.rule.messages? formats nullable data = some []) :
    (∀ items, data ≠ .list items) ∧ (∀ entries, data ≠ .map entries) ∧ data ≠ .null := by
  cases data with
  | null => cases kind <;> simp_all [messages?, ScalarKind.rule, JsonType.accepts?]
  | list items => cases kind <;> simp_all [messages?, ScalarKind.rule, JsonType.accepts?]
  | map entries => cases kind <;> simp_all [messages?, ScalarKind.rule, JsonType.accepts?]
  | _ => simp

/-- To allow null changes nothing for other data, however formats are tested. -/
theorem messages?_nullable_iff (rule : ScalarRule) {data : Data} (given : data ≠ .null) (formats nullable : Bool) :
    rule.messages? formats nullable data = some [] ↔ rule.messages? formats false data = some [] := by
  have noNull : data.isNull = false := by
    cases data with
    | null => exact absurd rfl given
    | _ => rfl
  simp only [messages?, noNull, Bool.and_false, Bool.false_eq_true, if_false, Option.map_eq_some_iff,
    List.append_eq_nil_iff]
  refine exists_congr fun hasType => and_congr_right fun _ => and_congr_left fun _ => ?_
  cases hasType <;> simp

end ScalarRule

/-- Data that is not looked into breaks nothing exactly if it is null where that is allowed, or a scalar that
meets the rule of its kind. -/
theorem ValueConstraint.plainMessages?_eq_nil_iff (constraint : ValueConstraint) (formats : Bool) (data : Data) :
    constraint.plainMessages? formats data = some [] ↔
      constraint.required = false ∧ data = .null ∨
        constraint.multivalued = false ∧ ∃ kind, constraint.range = .scalar kind ∧
          kind.rule.messages? formats false data = some [] := by
  obtain ⟨range, multivalued, required⟩ := constraint
  by_cases isNull : required = false ∧ data = .null
  · obtain ⟨rfl, rfl⟩ := isNull
    simp [plainMessages?, Data.isNull]
  · have given : (!required && data.isNull) = false := by
      rw [← Bool.not_eq_true, Bool.and_eq_true, Bool.not_eq_true']
      rintro ⟨optional, same⟩
      cases data <;> simp_all [Data.isNull]
    simp only [plainMessages?, given, Bool.false_eq_true, if_false, isNull, false_or]
    cases multivalued with
    | true => simp
    | false =>
      cases range with
      | instanceOf className => simp
      | scalar kind =>
        simp only [Bool.false_eq_true, if_false, Range.scalar.injEq, exists_eq_left', true_and]
        by_cases same : data = .null
        · have required : required = true := by
            cases required
            · exact absurd ⟨rfl, same⟩ isNull
            · rfl
          rw [required, Bool.not_true]
        · exact kind.rule.messages?_nullable_iff same formats (!required)

namespace ObjectModel

variable {model : ObjectModel} {formats : Bool} {constraint : ValueConstraint}

/-- Valid data without parts is what breaks nothing. -/
theorem accepts_leaf_iff {data : Data} (noList : ∀ items, data ≠ .list items)
    (noMap : ∀ entries, data ≠ .map entries) :
    model.Accepts formats constraint data ↔ constraint.plainMessages? formats data = some [] := by
  rw [constraint.plainMessages?_eq_nil_iff]
  obtain ⟨range, multivalued, required⟩ := constraint
  constructor
  · rintro (_ | met)
    · exact .inl ⟨rfl, rfl⟩
    · exact .inr ⟨rfl, _, rfl, met⟩
    · exact absurd rfl (noMap _)
    · exact absurd rfl (noList _)
  · rintro (⟨rfl, rfl⟩ | ⟨rfl, kind, rfl, met⟩)
    · exact .null
    · exact .scalar met

/-- A list is no scalar, so it breaks something where one value is expected. -/
theorem plainMessages?_list_ne_nil (items : List Data) :
    constraint.plainMessages? formats (.list items) ≠ some [] := by
  rw [ne_eq, constraint.plainMessages?_eq_nil_iff]
  rintro (⟨_, other⟩ | ⟨_, kind, _, met⟩)
  · cases other
  · exact (ScalarRule.isScalar_of_messages? (by simp) met).1 items rfl

theorem plainMessages?_map_ne_nil (entries : Table Data) :
    constraint.plainMessages? formats (.map entries) ≠ some [] := by
  rw [ne_eq, constraint.plainMessages?_eq_nil_iff]
  rintro (⟨_, other⟩ | ⟨_, kind, _, met⟩)
  · cases other
  · exact (ScalarRule.isScalar_of_messages? (by simp) met).2.1 entries rfl

theorem accepts_list_iff {items : List Data} :
    model.Accepts formats constraint (.list items) ↔ constraint.multivalued = true ∧
      (constraint.required = true → items ≠ []) ∧
        ∀ item ∈ items, model.Accepts formats constraint.range.single item := by
  obtain ⟨range, multivalued, required⟩ := constraint
  constructor
  · rintro (_ | met | _ | ⟨given, each⟩)
    · exact absurd rfl ((ScalarRule.isScalar_of_messages? (by simp) met).1 items)
    · exact ⟨rfl, given, each⟩
  · rintro ⟨rfl, given, each⟩
    exact .list given each

theorem accepts_map_iff {entries : Table Data} :
    model.Accepts formats constraint (.map entries) ↔ constraint.multivalued = false ∧
      ∃ className classModel, constraint.range = .instanceOf className ∧
        model.class? className = some classModel ∧
        (∀ field ∈ classModel.fields, field.required = true → entries.has field.name = true) ∧
        (∀ entry ∈ entries, (classModel.field? entry.1).isSome = true) ∧
        ∀ entry ∈ entries, ∀ field, classModel.field? entry.1 = some field →
          model.Accepts formats field.constraint.toValueConstraint entry.2 := by
  obtain ⟨range, multivalued, required⟩ := constraint
  constructor
  · rintro (_ | met | ⟨found, complete, known, each⟩)
    · exact absurd rfl ((ScalarRule.isScalar_of_messages? (by simp) met).2.1 entries)
    · exact ⟨rfl, _, _, rfl, found, complete, known, each⟩
  · rintro ⟨rfl, className, classModel, rfl, found, complete, known, each⟩
    exact .object found complete known each

end ObjectModel

theorem map_isEmpty_eq_some_true_iff {α : Type} {messages? : Option (List α)} :
    messages?.map List.isEmpty = some true ↔ messages? = some [] := by
  cases messages? <;> simp

theorem map_map_eq_some_nil_iff {α β : Type} (f : α → β) {messages? : Option (List α)} :
    messages?.map (List.map f) = some [] ↔ messages? = some [] := by
  cases messages? <;> simp

/-- What is needed of a document and a model to tell what is valid: the references that are met lead to the
definitions of their classes, and further references are met only from there. -/
structure ValidationDocument.Leads (document : ValidationDocument) (model : ObjectModel) (met : String → Prop) :
    Prop where
  target : ∀ {name}, met name → ∃ classModel, model.class? name = some classModel ∧
    document.target? name = some classModel.constraints
  closed : ∀ {name classModel field target}, met name → model.class? name = some classModel →
    field ∈ classModel.fields → field.range = .instanceOf target → met target

/-- Whether a range refers to a class only if the reference is met. -/
def Range.IsMet (met : String → Prop) : Range → Prop
  | .scalar _ => True
  | .instanceOf className => met className

namespace ValidationDocument

variable {document : ValidationDocument} {model : ObjectModel} {met : String → Prop} (formats : Bool)

theorem Leads.isMet (leads : document.Leads model met) {className : String} (isMet : met className)
    {classModel : ClassModel} (found : model.class? className = some classModel) {key : String}
    {field : Field} (isField : classModel.field? key = some field) : field.range.IsMet met := by
  cases range : field.range with
  | scalar kind => trivial
  | instanceOf target => exact leads.closed isMet found (List.mem_of_find?_eq_some isField) range

mutual

/-- Exactly valid data is accepted. -/
theorem accepts?_iff_accepts (leads : document.Leads model met) :
    ∀ (data : Data) (constraint : ValueConstraint), constraint.range.IsMet met →
      (document.accepts? formats constraint data = some true ↔ model.Accepts formats constraint data)
  | .null, constraint, _ => by
    rw [accepts?, map_isEmpty_eq_some_true_iff, ObjectModel.accepts_leaf_iff]
    all_goals simp
  | .bool value, constraint, _ => by
    rw [accepts?, map_isEmpty_eq_some_true_iff, ObjectModel.accepts_leaf_iff]
    all_goals simp
  | .number literal, constraint, _ => by
    rw [accepts?, map_isEmpty_eq_some_true_iff, ObjectModel.accepts_leaf_iff]
    all_goals simp
  | .text value, constraint, _ => by
    rw [accepts?, map_isEmpty_eq_some_true_iff, ObjectModel.accepts_leaf_iff]
    all_goals simp
  | .list items, constraint, isMet => by
    rw [ObjectModel.accepts_list_iff]
    cases several : constraint.multivalued with
    | true =>
      have each := acceptsItems?_iff_accepts leads items constraint.range isMet
      simp only [accepts?, several, if_true, ← each, true_and]
      split
      · rename_i accepted
        cases constraint.required <;> simp [accepted]
      · rename_i refused
        exact ⟨fun accepted => (refused accepted).elim, fun valid => (refused valid.2).elim⟩
    | false =>
      simp only [accepts?, several, Bool.false_eq_true, if_false, map_isEmpty_eq_some_true_iff, false_and,
        iff_false]
      exact ObjectModel.plainMessages?_list_ne_nil items
  | .map entries, constraint, isMet => by
    rw [ObjectModel.accepts_map_iff]
    have refused : (constraint.plainMessages? formats (.map entries)).map List.isEmpty ≠ some true := by
      rw [ne_eq, map_isEmpty_eq_some_true_iff]
      exact ObjectModel.plainMessages?_map_ne_nil entries
    cases several : constraint.multivalued with
    | true => simp [accepts?, several, refused]
    | false =>
      cases range : constraint.range with
      | scalar kind => simp [accepts?, several, range, refused]
      | instanceOf className =>
        rw [range] at isMet
        obtain ⟨classModel, found, target⟩ := leads.target isMet
        have each := acceptsEntries?_iff_accepts leads isMet found entries
        have complete := classModel.requiredNames_all_iff entries
        simp only [accepts?, several, range, target, true_and, Range.instanceOf.injEq, exists_and_left,
          exists_eq_left', found, Option.some.injEq, ← complete, ← each]
        split
        · rename_i isComplete
          exact (and_iff_right isComplete).symm
        · rename_i incomplete
          exact iff_of_false (by simp) fun valid => incomplete valid.1

/-- Items are accepted exactly if each is valid. -/
theorem acceptsItems?_iff_accepts (leads : document.Leads model met) :
    ∀ (items : List Data) (range : Range), range.IsMet met →
      (document.acceptsItems? formats range.single items = some true ↔
        ∀ item ∈ items, model.Accepts formats range.single item)
  | [], range, _ => by simp [acceptsItems?]
  | item :: rest, range, isMet => by
    have first := accepts?_iff_accepts leads item range.single isMet
    have others := acceptsItems?_iff_accepts leads rest range isMet
    rw [List.forall_mem_cons, ← first, ← others, acceptsItems?]
    split <;> simp_all

/-- Entries are accepted exactly if each is known and valid. -/
theorem acceptsEntries?_iff_accepts (leads : document.Leads model met) {className : String}
    {classModel : ClassModel} (isClass : met className) (found : model.class? className = some classModel) :
    ∀ entries : List (String × Data),
      (document.acceptsEntries? formats classModel.constraints entries = some true ↔
        (∀ entry ∈ entries, (classModel.field? entry.1).isSome = true) ∧
        ∀ entry ∈ entries, ∀ field, classModel.field? entry.1 = some field →
          model.Accepts formats field.constraint.toValueConstraint entry.2)
  | [] => by simp [acceptsEntries?]
  | (key, data) :: rest => by
    have others := acceptsEntries?_iff_accepts leads isClass found rest
    simp only [acceptsEntries?, ClassModel.property?_constraints, List.forall_mem_cons]
    cases isField : classModel.field? key with
    | none => simp
    | some field =>
      have first := accepts?_iff_accepts leads data field.constraint.toValueConstraint
        (leads.isMet isClass found isField)
      simp only [Option.map_some, Option.isSome_some, true_and, Option.some.injEq, forall_eq', ← first]
      rw [and_left_comm, ← others]
      split <;> simp_all

end

mutual

/-- Exactly valid data breaks nothing. -/
theorem violations?_iff_accepts (leads : document.Leads model met) :
    ∀ (data : Data) (constraint : ValueConstraint) (path : String), constraint.range.IsMet met →
      (document.violations? formats constraint path data = some [] ↔ model.Accepts formats constraint data)
  | .null, constraint, path, _ => by
    rw [violations?, map_map_eq_some_nil_iff, ObjectModel.accepts_leaf_iff]
    all_goals simp
  | .bool value, constraint, path, _ => by
    rw [violations?, map_map_eq_some_nil_iff, ObjectModel.accepts_leaf_iff]
    all_goals simp
  | .number literal, constraint, path, _ => by
    rw [violations?, map_map_eq_some_nil_iff, ObjectModel.accepts_leaf_iff]
    all_goals simp
  | .text value, constraint, path, _ => by
    rw [violations?, map_map_eq_some_nil_iff, ObjectModel.accepts_leaf_iff]
    all_goals simp
  | .list items, constraint, path, isMet => by
    rw [ObjectModel.accepts_list_iff]
    cases several : constraint.multivalued with
    | true =>
      have each := itemsViolations?_iff_accepts leads items constraint.range path 0 isMet
      simp only [violations?, several, if_true, ← each, true_and, Option.map_eq_some_iff]
      cases required : constraint.required <;> cases items <;> simp
    | false =>
      simp only [violations?, several, Bool.false_eq_true, if_false, map_map_eq_some_nil_iff, false_and,
        iff_false]
      exact ObjectModel.plainMessages?_list_ne_nil items
  | .map entries, constraint, path, isMet => by
    have accepted := accepts?_iff_accepts formats leads (.map entries) constraint isMet
    have refused : (constraint.plainMessages? formats (.map entries)).map
        (List.map fun message => (⟨path, message⟩ : Violation)) ≠ some [] := by
      rw [ne_eq, map_map_eq_some_nil_iff]
      exact ObjectModel.plainMessages?_map_ne_nil entries
    cases several : constraint.multivalued with
    | true => simp [ObjectModel.accepts_map_iff, violations?, several, refused]
    | false =>
      cases range : constraint.range with
      | scalar kind =>
        have plain : document.violations? formats constraint path (.map entries) =
            (constraint.plainMessages? formats (.map entries)).map (List.map (⟨path, ·⟩)) := by
          cases required : constraint.required <;> simp only [violations?, several, range, required]
        rw [plain, ObjectModel.accepts_map_iff]
        exact iff_of_false refused (by simp [range])
      | instanceOf className =>
        cases required : constraint.required with
        | false =>
          -- behind an optional reference only the verdict counts
          rw [← accepted]
          simp only [violations?, several, range, required, Option.map_eq_some_iff]
          constructor
          · rintro ⟨verdict, found, noViolation⟩
            cases verdict
            · simp at noViolation
            · exact found
          · intro found
            exact ⟨true, found, rfl⟩
        | true =>
          rw [range] at isMet
          obtain ⟨classModel, found, target⟩ := leads.target isMet
          have each := entriesViolations?_iff_accepts leads isMet found entries path
          have complete := classModel.requiredNames_all_iff entries
          rw [ObjectModel.accepts_map_iff]
          simp only [violations?, several, range, required, target, true_and, Range.instanceOf.injEq,
            exists_and_left, exists_eq_left', found, Option.some.injEq, ← complete, ← each,
            Option.map_eq_some_iff, List.append_eq_nil_iff, ClassConstraints.missingViolations_eq_nil_iff,
            ClassConstraints.unexpectedViolations_eq_nil_iff, ClassModel.property?_constraints,
            Option.isSome_map]
          constructor
          · rintro ⟨_, entriesRead, ⟨isComplete, rfl⟩, expected⟩
            exact ⟨isComplete, expected, entriesRead⟩
          · rintro ⟨isComplete, expected, entriesRead⟩
            exact ⟨[], entriesRead, ⟨isComplete, rfl⟩, expected⟩

/-- Items break nothing exactly if each is valid. -/
theorem itemsViolations?_iff_accepts (leads : document.Leads model met) :
    ∀ (items : List Data) (range : Range) (path : String) (index : Nat), range.IsMet met →
      (document.itemsViolations? formats range.single path index items = some [] ↔
        ∀ item ∈ items, model.Accepts formats range.single item)
  | [], range, path, index, _ => by simp [itemsViolations?]
  | item :: rest, range, path, index, isMet => by
    have first := violations?_iff_accepts leads item range.single
      (path ++ pointerSegment (toString index)) isMet
    have others := itemsViolations?_iff_accepts leads rest range path (index + 1) isMet
    rw [List.forall_mem_cons, ← first, ← others, itemsViolations?]
    cases document.violations? formats range.single (path ++ pointerSegment (toString index)) item <;>
      cases document.itemsViolations? formats range.single path (index + 1) rest <;> simp

/-- Entries break nothing and none is unexpected exactly if each is known and valid. -/
theorem entriesViolations?_iff_accepts (leads : document.Leads model met) {className : String}
    {classModel : ClassModel} (isClass : met className) (found : model.class? className = some classModel) :
    ∀ (entries : List (String × Data)) (path : String),
      (document.entriesViolations? formats classModel.constraints path entries = some [] ↔
        ∀ entry ∈ entries, ∀ field, classModel.field? entry.1 = some field →
          model.Accepts formats field.constraint.toValueConstraint entry.2)
  | [], path => by simp [entriesViolations?]
  | (key, data) :: rest, path => by
    have others := entriesViolations?_iff_accepts leads isClass found rest path
    rw [List.forall_mem_cons, ← others, entriesViolations?, ClassModel.property?_constraints]
    cases isField : classModel.field? key with
    | none => simp
    | some field =>
      have first := violations?_iff_accepts leads data field.constraint.toValueConstraint
        (path ++ pointerSegment key) (leads.isMet isClass found isField)
      simp only [Option.map_some, Option.some.injEq, forall_eq', ← first]
      cases document.violations? formats field.constraint.toValueConstraint (path ++ pointerSegment key) data <;>
        cases document.entriesViolations? formats classModel.constraints path rest <;> simp

end

end ValidationDocument

end ClassSchema
