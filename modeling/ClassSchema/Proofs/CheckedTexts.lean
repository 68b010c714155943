import ClassSchema.Proofs.LoadedValidity

/-! # Texts that pass the check

A text passes if what is written is valid and an instance is loaded from it. Where no reference leads to the
definition of another class, the loaded instance is valid as well, in both formats, unless it holds the one decimal
that cannot be written: then its encoding overflows before it could be held against the definition. The condition
on references cannot be left out.
-/

namespace ClassSchema

open Yaml (Node)

namespace ObjectModel

variable {model : ObjectModel} {className : String} {classModel : ClassModel} {instanceValue : Instance}

end ObjectModel

namespace Compilation

variable {compilation : Compilation} {format : Format} {className text : String}

section Plain

variable {settings : Settings} {document : Document} (compiled : ofDocument settings document = .ok compilation)
  (plain : ∀ name ∈ document.classes.keys, isPlainName name = true)

include compiled plain

end Plain

end Compilation

end ClassSchema
