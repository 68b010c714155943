import ClassSchema.Proofs.ReferencePaths
import ClassSchema.Proofs.Validity
import ClassSchema.Proofs.Walks

/-! # References that are met

Validation is built for a class by following its references, and those that are met on the way, once each. What
is found is closed under following, so where all of it is linked and no reference leads to the definition of
another class, the definitions that validation uses are the ones of the field tables.
-/

namespace ClassSchema

namespace ValidationDocument

/-- The names of the references that are met from the one for a class on, if each leads to the class of its name. -/
inductive MetFrom (document : ValidationDocument) (start : String) : String → Prop
  | start : MetFrom document start start
  | next {name other : String} {constraints : ClassConstraints} (met : MetFrom document start name)
      (found : document.class? name = some constraints) (refers : other ∈ constraints.classNames) :
      MetFrom document start other

/-- Whether each reference for a class that is met from another one on, if it leads to a definition, leads to the
one of this class. -/
def KeepsNames (document : ValidationDocument) (start : String) : Prop :=
  ∀ name constraints, document.MetFrom start name → (document.class? name).isSome = true →
    document.target? name = some constraints → constraints.name = name

variable {document : ValidationDocument} {model : ObjectModel}

/-- Where names are kept, a reference leads to the definition under its name, if anywhere. -/
theorem KeepsNames.target {start : String} (keeps : document.KeepsNames start) (wellFormed : model.WellFormed)
    (mirrors : ∀ name, document.class? name = (model.class? name).map ClassModel.constraints) {name : String}
    (isMet : document.MetFrom start name) {classModel : ClassModel} (found : model.class? name = some classModel)
    {constraints : ClassConstraints} (leads : document.target? name = some constraints) :
    constraints = classModel.constraints := by
  obtain ⟨key, _, isKey⟩ := (document.target?_eq_some_iff name constraints).mp leads
  have isClass : document.class? name = some classModel.constraints := by rw [mirrors, found, Option.map_some]
  have kept := keeps name constraints isMet (by rw [isClass]; rfl) leads
  rw [mirrors, Option.map_eq_some_iff] at isKey
  obtain ⟨other, isOther, rfl⟩ := isKey
  obtain rfl : key = name := (wellFormed.named isOther).symm.trans kept
  cases found.symm.trans isOther
  rfl

end ValidationDocument

end ClassSchema
