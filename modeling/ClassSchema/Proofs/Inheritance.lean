import ClassSchema.Document.Inheritance

/-! # Names of inherited attributes

Overriding keeps a list of attributes free of repeated names: an attribute takes the place of the one
with its name or stands at the end. So the attributes of a class, inherited ones included, have distinct
names, whatever its definition repeats.
-/

namespace ClassSchema

/-- Overriding keeps the names and adds the new one at the end if it was missing. -/
theorem names_overrideAttribute (attributes : List Attribute) (attr : Attribute) :
    (overrideAttribute attributes attr).map Attribute.name =
      if attr.name ∈ attributes.map Attribute.name then attributes.map Attribute.name
      else attributes.map Attribute.name ++ [attr.name] := by
  induction attributes with
  | nil => simp [overrideAttribute]
  | cons inherited rest ih =>
    by_cases same : inherited.name = attr.name
    · simp [overrideAttribute, same]
    · simp only [overrideAttribute, same, if_false, List.map_cons, List.mem_cons, ih, Ne.symm same,
        false_or]
      by_cases present : attr.name ∈ rest.map Attribute.name <;> simp only [present, if_true, if_false,
        List.cons_append]

theorem nodup_overrideAttribute {attributes : List Attribute} (attr : Attribute)
    (distinct : (attributes.map Attribute.name).Nodup) :
    ((overrideAttribute attributes attr).map Attribute.name).Nodup := by
  rw [names_overrideAttribute]
  split
  · exact distinct
  · rename_i isNew
    rw [List.nodup_append]
    refine ⟨distinct, by simp, ?_⟩
    rintro name member other isName rfl
    rw [List.mem_singleton.mp isName] at member
    exact isNew member

theorem nodup_overrideAttributes {inherited : List Attribute} (own : List Attribute)
    (distinct : (inherited.map Attribute.name).Nodup) :
    ((overrideAttributes inherited own).map Attribute.name).Nodup := by
  induction own generalizing inherited with
  | nil => exact distinct
  | cons attr rest ih => exact ih (nodup_overrideAttribute attr distinct)

/-- The attributes of a class, inherited ones included, have distinct names. -/
theorem Document.nodup_inducedAttributes {document : Document} {name : String}
    {attributes : List Attribute} (induced : document.inducedAttributes name = .ok attributes) :
    (attributes.map Attribute.name).Nodup := by
  have folded (classes : List ClassDefinition) : ∀ found : List Attribute,
      (found.map Attribute.name).Nodup →
      ((classes.foldl (fun attributes definition =>
        overrideAttributes attributes definition.attributes) found).map Attribute.name).Nodup := by
    induction classes with
    | nil => exact fun _ distinct => distinct
    | cons definition rest ih =>
      exact fun _ distinct => ih _ (nodup_overrideAttributes definition.attributes distinct)
  simp only [Document.inducedAttributes, bind, Except.bind, pure, Except.pure] at induced
  split at induced
  · contradiction
  · cases induced
    exact folded _ [] List.nodup_nil

end ClassSchema
