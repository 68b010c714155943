import ClassSchema.Fingerprint
import ClassSchema.Graph.Cycles
import ClassSchema.Graph.Dot
import ClassSchema.Graph.Turtle
import ClassSchema.Instance.Loading
import ClassSchema.Settings
import ClassSchema.Struct.Source
import ClassSchema.Validation.Report

/-! # Compilations

A compilation has everything that is generated from one document: the object model, the semantic graph and
the validation document. Instances are loaded, written and checked with it.
-/

namespace ClassSchema

/-- What is generated from a document, under the settings of a user. -/
structure Compilation where
  settings : Settings
  document : Document
  model : ObjectModel
  graph : SchemaGraph
  validation : ValidationDocument

/-- Why a text or an instance cannot be held against a class. -/
inductive CheckError where
  | malformed (format : Format)
  | encoding (error : EncodingError)
  | validation (error : ValidationError)
deriving DecidableEq, Repr

/-- What a check of a text finds: the report on the data as it is written, and why it does not load. -/
structure DocumentCheck where
  report : Report
  loadError? : Option LoadError
deriving DecidableEq, Repr

/-- Whether a text is valid and loads. -/
def DocumentCheck.passed (check : DocumentCheck) : Bool :=
  check.report.isValid && check.loadError?.isNone

namespace Compilation

/-- The compilation of a document whose imports are resolved. -/
def ofDocument (settings : Settings) (document : Document) : Except SchemaError Compilation := do
  let model ← ObjectModel.ofDocument document
  let graph ← SchemaGraph.ofDocument document
  let validation ← ValidationDocument.ofDocument document
  return ⟨settings, document, model, graph, validation⟩

/-- The fingerprint of the document. -/
def fingerprint (compilation : Compilation) : Fingerprint :=
  compilation.document.fingerprint

/-- The source of the object model, with the fingerprint in its first line. -/
def structSource (compilation : Compilation) : StructSource :=
  let source := Struct.render compilation.settings.profile compilation.model compilation.graph
  { source with code := s!"//! Schema fingerprint: {compilation.fingerprint.text}\n" ++ source.code }

/-- JSON text in the layout of the settings. -/
def jsonText (compilation : Compilation) (data : Data) : String :=
  match compilation.settings.jsonLayout with
  | .pretty => Json.indented data
  | .compact => Json.compact data

/-- The validation document as JSON text. -/
def jsonSchemaText (compilation : Compilation) : String :=
  compilation.jsonText compilation.validation.toData

/-- The instance of a class that a text holds. -/
def load (compilation : Compilation) (format : Format) (className text : String) :
    Except LoadError Instance :=
  compilation.model.load format className text

/-- The instance as text in a format. -/
def dump (compilation : Compilation) (instanceValue : Instance) : Format → Except EncodingError String
  | .json => instanceValue.toJson.map compilation.jsonText
  | .block => instanceValue.toBlockText

/-- The report on data for a class. -/
def validateData (compilation : Compilation) (className : String) (data : Data) :
    Except CheckError Report :=
  (compilation.validation.validate compilation.settings.validateFormats className data).mapError .validation

/-- The report on the JSON form of an instance. -/
def validate (compilation : Compilation) (instanceValue : Instance) : Except CheckError Report := do
  let data ← instanceValue.toJson.mapError CheckError.encoding
  compilation.validateData instanceValue.className data

/-- The check of a text for a class: it is held against the definition as it is written, and loaded. -/
def check (compilation : Compilation) (format : Format) (className text : String) :
    Except CheckError DocumentCheck :=
  match format.read? text with
  | none => .error (.malformed format)
  | some data => do
    let report ← compilation.validateData className data
    match compilation.load format className text with
    | .ok _ => return ⟨report, none⟩
    | .error error => return ⟨report, some error⟩

end Compilation

end ClassSchema
