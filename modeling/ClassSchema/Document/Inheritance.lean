import ClassSchema.Document
import ClassSchema.Error

/-! # Inheritance

A class has the attributes of its ancestors besides its own. They stand in the order from the most
distant ancestor to the class itself; an attribute that is declared again replaces the inherited one in
its place.
-/

namespace ClassSchema

/-- Replace the attribute of the same name, or add the attribute at the end. -/
def overrideAttribute (attributes : List Attribute) (attr : Attribute) : List Attribute :=
  match attributes with
  | [] => [attr]
  | inherited :: rest =>
    if inherited.name = attr.name then attr :: rest
    else inherited :: overrideAttribute rest attr

/-- Override attributes with others, one after the other. -/
def overrideAttributes (inherited own : List Attribute) : List Attribute :=
  own.foldl overrideAttribute inherited

namespace Document

/-- The class of a name. -/
def class? (document : Document) (name : String) : Option ClassDefinition :=
  document.classes.get? name

/-- The class and its ancestors, the most distant first, in front of the classes already found. The
names in `seen` may not come again; `fuel` is how many more classes can be new. -/
def lineageFrom (document : Document) (fuel : Nat) (seen : List String)
    (found : List ClassDefinition) (name : String) : Except SyntaxError (List ClassDefinition) :=
  if seen.contains name then .error (.inheritanceCycle name)
  else
    match document.class? name, fuel with
    | none, _ => .error (.undefinedClass name)
    | some definition, fuel + 1 =>
      match definition.parent? with
      | none => .ok (definition :: found)
      | some parent => lineageFrom document fuel (name :: seen) (definition :: found) parent
    | some _, 0 => .error (.inheritanceCycle name)

/-- The class and its ancestors, the most distant first. -/
def lineage (document : Document) (name : String) : Except SyntaxError (List ClassDefinition) :=
  document.lineageFrom document.classes.length [] [] name

/-- The attributes of a class with the inherited ones. -/
def inducedAttributes (document : Document) (name : String) : Except SyntaxError (List Attribute) := do
  let classes ← document.lineage name
  return classes.foldl (fun attributes definition => overrideAttributes attributes definition.attributes) []

end Document

end ClassSchema
