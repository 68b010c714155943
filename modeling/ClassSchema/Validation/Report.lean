import ClassSchema.Json.Writer
import ClassSchema.Validation.Reference

/-! # Validation reports

Data is held against the definition of a class. A report lists every rule that is broken, with the place in
the data where it is; a rule that is met in one of several ways is one rule, and what breaks each way is not
listed. No outcome is `none`: it comes from a number without measure where an integer is asked for.
-/

namespace ClassSchema

/-- A rule that data breaks. -/
structure Violation where
  /-- The place in the data, as a JSON Pointer; empty for the data as a whole. -/
  path : String
  message : String
deriving DecidableEq, Repr

/-- The place and the rule together. -/
def Violation.text (violation : Violation) : String :=
  if violation.path.isEmpty then "(root): " ++ violation.message
  else violation.path ++ ": " ++ violation.message

/-- The rules that data breaks: of an object first what is missing, then what its entries break in their
order, then what is unexpected. -/
structure Report where
  violations : List Violation
deriving DecidableEq, Repr

/-- Whether no rule is broken. -/
def Report.isValid (report : Report) : Bool :=
  report.violations.isEmpty

/-- What data is not, where one type is asked for, or one type or null. -/
def typeMessage (type : JsonType) (nullable : Bool) (data : Data) : String :=
  let name := Json.quote type.name
  let null := Json.quote JsonType.null.name
  let wanted :=
    if !nullable then " is not of type ".toList ++ name
    else if type.name < JsonType.null.name then " is not of types ".toList ++ name ++ ", ".toList ++ null
    else " is not of types ".toList ++ null ++ ", ".toList ++ name
  Json.compact data ++ String.ofList wanted

/-- What a text is not, where a date is asked for. -/
def dateMessage (data : Data) : String :=
  Json.compact data ++ " is not a \"date\""

/-- What a text does not match. -/
def patternMessage (pattern : TextPattern) (data : Data) : String :=
  Json.compact data ++ " does not match \"" ++ pattern.text ++ "\""

/-- What an empty array is. -/
def emptyMessage : String := "[] has less than 1 item"

/-- What data is not, where an instance or null is asked for. -/
def alternativesMessage (data : Data) : String :=
  Json.compact data ++ " is not valid under any of the schemas listed in the 'anyOf' keyword"

/-- Which attribute is missing. -/
def missingMessage (name : String) : String :=
  String.ofList (Json.quote name) ++ " is a required property"

/-- Which keys are no attributes. -/
def unexpectedMessage (names : List String) : String :=
  let quoted := ", ".intercalate (names.map fun name => s!"'{name}'")
  let verb := if names.length = 1 then "was" else "were"
  s!"Additional properties are not allowed ({quoted} {verb} unexpected)"

/-- The name of a key or a position as a segment of a place. -/
def pointerSegment (name : String) : String :=
  String.ofList ('/' :: name.toList.flatMap fun c =>
    if c = '~' then ['~', '0'] else if c = '/' then ['~', '1'] else [c])

namespace ScalarRule

/-- What a text breaks of a rule; other data breaks nothing but the type. -/
def textMessages (rule : ScalarRule) (formats : Bool) : Data → List String
  | .text value =>
    (if formats && rule.isDate && !isDateText value then [dateMessage (.text value)] else []) ++
      (rule.pattern?.toList.filter fun pattern => !pattern.accepts value).map fun pattern =>
        patternMessage pattern (.text value)
  | _ => []

/-- What data breaks of a rule. -/
def messages? (rule : ScalarRule) (formats nullable : Bool) (data : Data) : Option (List String) :=
  if nullable && data.isNull then some []
  else
    (rule.type.accepts? data).map fun hasType =>
      (if hasType then [] else [typeMessage rule.type nullable data]) ++ rule.textMessages formats data

end ScalarRule

namespace ValueConstraint

/-- What data breaks that has no parts to look into. -/
def plainMessages? (constraint : ValueConstraint) (formats : Bool) (data : Data) : Option (List String) :=
  let nullable := !constraint.required
  if nullable && data.isNull then some []
  else if constraint.multivalued then some [typeMessage .array nullable data]
  else
    match constraint.range with
    | .scalar kind => kind.rule.messages? formats nullable data
    | .instanceOf _ => some [if nullable then alternativesMessage data else typeMessage .object false data]

end ValueConstraint

/-- The violations of the definition of a class by the keys that an object lacks. -/
def ClassConstraints.missingViolations (constraints : ClassConstraints) (path : String)
    (entries : Table Data) : List Violation :=
  (constraints.requiredNames.filter fun name => !entries.has name).map fun name =>
    ⟨path, missingMessage name⟩

/-- The violations of the definition of a class by the keys of an object that are no attributes. -/
def ClassConstraints.unexpectedViolations (constraints : ClassConstraints) (path : String)
    (entries : Table Data) : List Violation :=
  let unexpected := entries.keys.filter fun key => (constraints.property? key).isNone
  if unexpected.isEmpty then [] else [⟨path, unexpectedMessage unexpected⟩]

namespace ValidationDocument

mutual

/-- Whether data is accepted. This is decided in the order of the data and ends at the first fault, so data with a
fault may be refused before a number without measure is met. -/
def accepts? (document : ValidationDocument) (formats : Bool) (constraint : ValueConstraint) :
    Data → Option Bool
  | .map entries =>
    match constraint.multivalued, constraint.range with
    | false, .instanceOf className =>
      match document.target? className with
      | none => some false
      | some constraints =>
        if constraints.requiredNames.all (Table.has entries) then
          acceptsEntries? document formats constraints entries
        else some false
    | _, _ => (constraint.plainMessages? formats (.map entries)).map List.isEmpty
  | .list items =>
    if constraint.multivalued then
      match acceptsItems? document formats constraint.range.single items with
      | some true => some (!(constraint.required && items.isEmpty))
      | verdict? => verdict?
    else (constraint.plainMessages? formats (.list items)).map List.isEmpty
  | data => (constraint.plainMessages? formats data).map List.isEmpty

/-- Whether every item is accepted. -/
def acceptsItems? (document : ValidationDocument) (formats : Bool) (constraint : ValueConstraint) :
    List Data → Option Bool
  | [] => some true
  | item :: rest =>
    match accepts? document formats constraint item with
    | some true => acceptsItems? document formats constraint rest
    | verdict? => verdict?

/-- Whether every entry is an attribute of a class and accepted for it. -/
def acceptsEntries? (document : ValidationDocument) (formats : Bool) (constraints : ClassConstraints) :
    List (String × Data) → Option Bool
  | [] => some true
  | (key, data) :: rest =>
    match constraints.property? key with
    | none => some false
    | some property =>
      match accepts? document formats property.toValueConstraint data with
      | some true => acceptsEntries? document formats constraints rest
      | verdict? => verdict?

end

mutual

/-- The violations by data. -/
def violations? (document : ValidationDocument) (formats : Bool) (constraint : ValueConstraint)
    (path : String) : Data → Option (List Violation)
  | .map entries =>
    match constraint.multivalued, constraint.required, constraint.range with
    | false, true, .instanceOf className =>
      match document.target? className with
      | none => some []
      | some constraints =>
        (entriesViolations? document formats constraints path entries).map fun found =>
          constraints.missingViolations path entries ++ found ++
            constraints.unexpectedViolations path entries
    | false, false, .instanceOf _ =>
      (document.accepts? formats constraint (.map entries)).map fun accepted =>
        if accepted then [] else [⟨path, alternativesMessage (.map entries)⟩]
    | _, _, _ => (constraint.plainMessages? formats (.map entries)).map (List.map (⟨path, ·⟩))
  | .list items =>
    if constraint.multivalued then
      (itemsViolations? document formats constraint.range.single path 0 items).map fun violations =>
        if constraint.required && items.isEmpty then ⟨path, emptyMessage⟩ :: violations else violations
    else (constraint.plainMessages? formats (.list items)).map (List.map (⟨path, ·⟩))
  | data => (constraint.plainMessages? formats data).map (List.map (⟨path, ·⟩))

/-- The violations by items from a position on. -/
def itemsViolations? (document : ValidationDocument) (formats : Bool) (constraint : ValueConstraint)
    (path : String) (index : Nat) : List Data → Option (List Violation)
  | [] => some []
  | item :: rest => do
    let first ← violations? document formats constraint (path ++ pointerSegment (toString index)) item
    let others ← itemsViolations? document formats constraint path (index + 1) rest
    return first ++ others

/-- The violations by the data of the entries that are attributes of a class. -/
def entriesViolations? (document : ValidationDocument) (formats : Bool) (constraints : ClassConstraints)
    (path : String) : List (String × Data) → Option (List Violation)
  | [] => some []
  | (key, data) :: rest => do
    let first ←
      match constraints.property? key with
      | none => some []
      | some property =>
        violations? document formats property.toValueConstraint (path ++ pointerSegment key) data
    let others ← entriesViolations? document formats constraints path rest
    return first ++ others

end

end ValidationDocument

/-- Why data cannot be held against a class at all. -/
inductive ValidationError where
  | unknownClass (name : String)
  /-- A reference that is met from the class on leads to no definition of a class. -/
  | unlinked (name : String)
  /-- The nearest double of a number is infinite where an integer is asked for. -/
  | noMeasure
deriving DecidableEq, Repr

/-- The wording of a validation error. -/
def ValidationError.message : ValidationError → String
  | .unknownClass name => s!"class '{name}' has no definition in the validation document"
  | .unlinked name => s!"cannot compile validator for '{name}'"
  | .noMeasure => "a number is out of range where an integer is asked for"

/-- The report on data for a class; `formats` says whether dates must be dates of the calendar. -/
def ValidationDocument.validate (document : ValidationDocument) (formats : Bool) (className : String)
    (data : Data) : Except ValidationError Report :=
  if (document.class? className).isNone then .error (.unknownClass className)
  else if !document.isBuildable className then .error (.unlinked className)
  else
    match document.violations? formats (Range.instanceOf className).single "" data with
    | some violations => .ok ⟨violations⟩
    | none => .error .noMeasure

end ClassSchema
