import ClassSchema.Proofs.Acceptance
import ClassSchema.Proofs.References
import ClassSchema.Proofs.Validity

/-! # Agreement of loading and validation

A field table and the definition made from it ask for the same shapes: where the coercions of scalars and
their rules give the same verdicts, data is loaded as an instance of a class exactly if the validation
document reports it valid for that class. What is valid is compared with what construction takes, in one
induction on the data.
-/

namespace ClassSchema

/-- Whether a scalar's coercion and its rule give the same verdict on data; a rule that gives none does
not accept. -/
def Range.agrees : Range → Data → Prop
  | .scalar kind, data =>
    kind.rule.messages? true false data = some [] ↔ (coerceScalar .typed kind data).isOk = true
  | .instanceOf _, _ => True

namespace ObjectModel

mutual

/-- Whether coercions and rules agree at every scalar position of data that is given where a constraint
asks for it. -/
def agrees (model : ObjectModel) (constraint : ValueConstraint) : Data → Prop
  | .null => True
  | .list items =>
    if constraint.multivalued then itemsAgree model constraint.range items
    else constraint.range.agrees (.list items)
  | .map entries =>
    if constraint.multivalued then True
    else
      match constraint.range with
      | .scalar kind => (Range.scalar kind).agrees (.map entries)
      | .instanceOf className =>
        match model.class? className with
        | none => True
        | some classModel => entriesAgree model classModel entries
  | data => if constraint.multivalued then True else constraint.range.agrees data

/-- Whether coercions and rules agree at every scalar position of the items of a list. -/
def itemsAgree (model : ObjectModel) (range : Range) : List Data → Prop
  | [] => True
  | item :: rest => agrees model range.single item ∧ itemsAgree model range rest

/-- Whether coercions and rules agree at every scalar position of the entries that are fields of a class. -/
def entriesAgree (model : ObjectModel) (classModel : ClassModel) : List (String × Data) → Prop
  | [] => True
  | (key, data) :: rest =>
    (match classModel.field? key with
      | none => True
      | some field => agrees model field.constraint.toValueConstraint data) ∧
      entriesAgree model classModel rest

end

end ObjectModel

/-- A coercion and a rule that give the same verdict. -/
theorem Range.met_iff_coerces {range : Range} {data : Data} (agrees : range.agrees data) :
    (∃ kind, range = .scalar kind ∧ kind.rule.messages? true false data = some []) ↔
      range.coerces .typed data = true := by
  cases range with
  | scalar kind => simpa [Range.agrees, Range.coerces] using agrees
  | instanceOf className => simp [Range.coerces]

/-- No list and no map coerces to a scalar. -/
theorem Range.coerces_parts (range : Range) (data : Data)
    (parts : (∃ items, data = .list items) ∨ ∃ entries, data = .map entries) :
    range.coerces .typed data = false := by
  rcases parts with ⟨items, rfl⟩ | ⟨entries, rfl⟩ <;> cases range with
  | instanceOf className => rfl
  | scalar kind => cases kind <;> rfl

namespace ObjectModel

variable {model : ObjectModel}

/-- Null is valid exactly where no value is required. -/
theorem accepts_null_iff (constraint : ValueConstraint) :
    model.Accepts true constraint .null ↔ constraint.required = false := by
  obtain ⟨range, multivalued, required⟩ := constraint
  constructor
  · rintro (_ | met)
    · rfl
    · exact absurd rfl (ScalarRule.isScalar_of_messages? (by simp) met).2.2
  · rintro rfl
    exact .null

/-- Other data without parts is valid exactly if one value is expected and the data coerces. -/
theorem accepts_leaf_iff_coerces (constraint : ValueConstraint) {data : Data} (given : data ≠ .null)
    (noList : ∀ items, data ≠ .list items) (noMap : ∀ entries, data ≠ .map entries)
    (agrees : constraint.multivalued = false → constraint.range.agrees data) :
    model.Accepts true constraint data ↔
      (!constraint.multivalued && constraint.range.coerces .typed data) = true := by
  rw [accepts_leaf_iff noList noMap, constraint.plainMessages?_eq_nil_iff]
  cases several : constraint.multivalued with
  | true => simp [given]
  | false => simp [given, Range.met_iff_coerces (agrees several)]

mutual

/-- Data is valid exactly if it is taken. -/
theorem accepts_iff_takes : ∀ (data : Data) (constraint : ValueConstraint), model.agrees constraint data →
    (model.Accepts true constraint data ↔ model.takes .typed constraint data = true)
  | .null, constraint, _ => by simp [accepts_null_iff, takes]
  | .bool value, constraint, agrees => by
    rw [takes, accepts_leaf_iff_coerces] <;> simp_all [ObjectModel.agrees]
  | .number literal, constraint, agrees => by
    rw [takes, accepts_leaf_iff_coerces] <;> simp_all [ObjectModel.agrees]
  | .text value, constraint, agrees => by
    rw [takes, accepts_leaf_iff_coerces] <;> simp_all [ObjectModel.agrees]
  | .list items, constraint, agrees => by
    rw [accepts_list_iff, takes]
    rw [ObjectModel.agrees] at agrees
    cases several : constraint.multivalued with
    | true =>
      simp only [several, if_true] at agrees ⊢
      rw [acceptsItems_iff_takes items constraint.range agrees]
      cases constraint.required <;> cases items <;> simp
    | false => simp [Range.coerces_parts constraint.range (.list items) (.inl ⟨items, rfl⟩)]
  | .map entries, constraint, agrees => by
    rw [accepts_map_iff, takes]
    rw [ObjectModel.agrees] at agrees
    cases several : constraint.multivalued with
    | true => simp
    | false =>
      cases range : constraint.range with
      | scalar kind => simp [Range.coerces_parts (.scalar kind) (.map entries) (.inr ⟨entries, rfl⟩)]
      | instanceOf className =>
        cases found : model.class? className with
        | none => simp [found]
        | some classModel =>
          simp only [several, range, found, Bool.false_eq_true, if_false] at agrees
          simp only [true_and, Range.instanceOf.injEq, exists_and_left, exists_eq_left', found, Option.some.injEq,
            Bool.not_false, Bool.true_and, Bool.and_eq_true, classModel.required_all_iff,
            acceptsEntries_iff_takes classModel entries agrees]
          exact and_comm

/-- Items are valid exactly if each is taken. -/
theorem acceptsItems_iff_takes : ∀ (items : List Data) (range : Range), model.itemsAgree range items →
    ((∀ item ∈ items, model.Accepts true range.single item) ↔ model.takesItems .typed range items = true)
  | [], range, _ => by simp [takesItems]
  | item :: rest, range, agrees => by
    rw [itemsAgree] at agrees
    rw [List.forall_mem_cons, takesItems, Bool.and_eq_true, accepts_iff_takes item range.single agrees.1,
      acceptsItems_iff_takes rest range agrees.2]

/-- Entries are known and valid exactly if each is taken for a field. -/
theorem acceptsEntries_iff_takes (classModel : ClassModel) : ∀ entries : List (String × Data),
    model.entriesAgree classModel entries →
      ((∀ entry ∈ entries, (classModel.field? entry.1).isSome = true) ∧
          (∀ entry ∈ entries, ∀ field, classModel.field? entry.1 = some field →
            model.Accepts true field.constraint.toValueConstraint entry.2) ↔
        model.takesEntries .typed classModel entries = true)
  | [], _ => by simp [takesEntries]
  | (key, data) :: rest, agrees => by
    rw [entriesAgree] at agrees
    have others := acceptsEntries_iff_takes classModel rest agrees.2
    rw [takesEntries, Bool.and_eq_true, ← others, List.forall_mem_cons, List.forall_mem_cons]
    cases isField : classModel.field? key with
    | none => simp
    | some field =>
      have agreesFirst := agrees.1
      simp only [isField] at agreesFirst
      simp only [Option.isSome_some, true_and, Option.some.injEq, forall_eq',
        accepts_iff_takes data field.constraint.toValueConstraint agreesFirst]
      exact and_left_comm

end

end ObjectModel

/-- What validation needs of a document to follow a model: the reference for a class leads to the
definition that says what the class's field table says. -/
structure ValidationDocument.Follows (document : ValidationDocument) (model : ObjectModel) : Prop where
  target : ∀ {name classModel}, model.class? name = some classModel →
    document.target? name = some classModel.constraints
  closed : ∀ {name classModel field target}, model.class? name = some classModel →
    field ∈ classModel.fields → field.range = .instanceOf target → (model.class? target).isSome = true

/-- Whether a range is a scalar kind or a class of a model. -/
def Range.IsKnown (model : ObjectModel) : Range → Prop
  | .scalar _ => True
  | .instanceOf className => (model.class? className).isSome = true

namespace ValidationDocument

variable {document : ValidationDocument} {model : ObjectModel}

/-- Where the references for all classes lead to their definitions, all classes may be met. -/
theorem Follows.leads (follows : document.Follows model) :
    document.Leads model fun name => (model.class? name).isSome = true where
  target known := by
    obtain ⟨classModel, found⟩ := Option.isSome_iff_exists.mp known
    exact ⟨classModel, found, follows.target found⟩
  closed _ found isField range := follows.closed found isField range

/-- Data breaks nothing exactly if it is taken. -/
theorem violations?_eq_nil_iff (follows : document.Follows model) (data : Data) (constraint : ValueConstraint)
    (path : String) (known : constraint.range.IsKnown model) (agrees : model.agrees constraint data) :
    document.violations? true constraint path data = some [] ↔ model.takes .typed constraint data = true := by
  have isMet : constraint.range.IsMet fun name => (model.class? name).isSome = true := by
    cases range : constraint.range with
    | scalar kind => trivial
    | instanceOf className =>
      rw [range] at known
      exact known
  rw [violations?_iff_accepts true follows.leads data constraint path isMet,
    ObjectModel.accepts_iff_takes data constraint agrees]

end ValidationDocument

/-- The validation document of a compiled schema follows the model, where class names are plain. -/
theorem Compilation.follows_of_ofDocument {settings : Settings} {document : Document}
    {compilation : Compilation} (compiled : ofDocument settings document = .ok compilation)
    (plain : ∀ name ∈ document.classes.keys, isPlainName name = true) :
    compilation.validation.Follows compilation.model := by
  obtain ⟨modelled, constrained⟩ := parts_of_ofDocument compiled
  refine ⟨?_, (ObjectModel.wellFormed_of_ofDocument modelled).closed⟩
  intro name classModel found
  have known : name ∈ document.classes.keys :=
    (ObjectModel.class?_isSome_iff modelled name).mp (by simp [found])
  rw [ValidationDocument.target?_of_plain _ (plain name known),
    ValidationDocument.class?_eq_constraints modelled constrained, found]
  rfl

/-- Of a compiled schema whose class names are plain: where the coercions of scalars and their rules agree
on a JSON value, it is loaded as an instance of a class exactly if it is reported valid for the class. -/
theorem Compilation.loadData_isOk_iff_isValid {settings : Settings} {document : Document}
    {compilation : Compilation} (compiled : ofDocument settings document = .ok compilation)
    (plain : ∀ name ∈ document.classes.keys, isPlainName name = true) {className : String}
    {classModel : ClassModel} (found : compilation.model.class? className = some classModel) {data : Data}
    (distinct : data.HasDistinctKeys)
    (agrees : compilation.model.agrees (Range.instanceOf className).single data) :
    (compilation.model.loadData classModel data).isOk = true ↔
      ∃ report, compilation.validation.validate true className data = .ok report ∧
        report.isValid = true := by
  obtain ⟨modelled, constrained⟩ := parts_of_ofDocument compiled
  have wellFormed := ObjectModel.wellFormed_of_ofDocument modelled
  have mirrors := ValidationDocument.class?_eq_constraints modelled constrained
  have follows := follows_of_ofDocument compiled plain
  have known : (compilation.model.class? className).isSome = true := by simp [found]
  have buildable : compilation.validation.isBuildable className = true :=
    ValidationDocument.isBuildable_of_plain wellFormed mirrors
      (fun name isClass => plain name ((ObjectModel.class?_isSome_iff modelled name).mp isClass)) known
  rw [ObjectModel.isOk_loadData_iff compilation.model wellFormed found distinct,
    ← ValidationDocument.violations?_eq_nil_iff follows data (Range.instanceOf className).single "" known
      agrees]
  simp only [ValidationDocument.validate, mirrors, found, buildable, Option.map_some, Option.isNone_some,
    Bool.false_eq_true, if_false, Bool.not_true]
  cases compilation.validation.violations? true (Range.instanceOf className).single "" data <;>
    simp [Report.isValid]

/-- A person with a friend who has no age is loaded and reported valid alike. -/
theorem Compilation.loadData_isOk_iff_isValid_people : ∃ compilation,
    ofDocument {} .people = .ok compilation ∧
      (∀ name ∈ Document.people.classes.keys, isPlainName name = true) ∧
      compilation.model.class? "Person" = some .person ∧
      ∃ data : Data, data = .map [("name", .text "Ada"), ("friend", .map [("name", .text "Bob")])] ∧
        data.HasDistinctKeys ∧ compilation.model.agrees (Range.instanceOf "Person").single data ∧
        ((compilation.model.loadData .person data).isOk = true ↔
          ∃ report, compilation.validation.validate true "Person" data = .ok report ∧
            report.isValid = true) := by
  obtain ⟨compilation, compiled, found⟩ := exists_people
  have plain : ∀ name ∈ Document.people.classes.keys, isPlainName name = true := by decide
  let data : Data := .map [("name", .text "Ada"), ("friend", .map [("name", .text "Bob")])]
  have distinct : data.HasDistinctKeys := by
    simp [data, Data.HasDistinctKeys, entriesHaveDistinctKeys, Table.keys]
  have agrees : compilation.model.agrees (Range.instanceOf "Person").single data := by
    simp [data, ObjectModel.agrees, ObjectModel.entriesAgree, Range.single, found, ClassModel.person,
      ClassModel.field?, Field.constraint, Range.agrees, ScalarKind.rule, ScalarRule.messages?,
      ScalarRule.textMessages, JsonType.accepts?, Data.isNull, coerceScalar, Except.isOk, Except.toBool]
  exact ⟨compilation, compiled, plain, found, data, rfl, distinct, agrees,
    loadData_isOk_iff_isValid compiled plain found distinct agrees⟩

end ClassSchema
