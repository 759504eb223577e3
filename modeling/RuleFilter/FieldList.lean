/-! # Field lists

The fields that the rules of a payload may refer to, in the order they were first named. -/

namespace RuleFilter

/-- Field names, each once. -/
structure FieldList where
  names : List String
  nodup : names.Nodup

namespace FieldList

/-- No fields. -/
def empty : FieldList :=
  ⟨[], .nil⟩

theorem nodup_append_singleton {names : List String} {name : String} (h : names.Nodup)
    (new : name ∉ names) : (names ++ [name]).Nodup := by
  refine List.nodup_append.2 ⟨h, by simp, fun a ha b hb => ?_⟩
  rintro rfl
  exact new (List.mem_singleton.1 hb ▸ ha)

/-- The list with a name at the end, unless it is listed. -/
def insert (fields : FieldList) (name : String) : FieldList :=
  if new : name ∈ fields.names then fields
  else ⟨fields.names ++ [name], nodup_append_singleton fields.nodup new⟩

/-- The list of the given names; of several equal names the first counts. -/
def ofList (names : List String) : FieldList :=
  names.foldl insert empty

/-- Whether a field is listed. -/
def contains (fields : FieldList) (name : String) : Bool :=
  fields.names.contains name

end FieldList

end RuleFilter
