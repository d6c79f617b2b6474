import Mathlib.Data.List.Basic
import TidyLines.Json.Record
import TidyLines.Proofs.Json.Printing

/-!
# Reading records that were written

The fields of a record are found again by their names, when no two have the same name.  A field that
is `null` and a field that is missing differ for a reader of fields, but not for a reader that
allows both (`Json.nullable`).
-/

namespace TidyLines.Json

theorem valuesOf_cons (name : String) (member : Option Text × Json)
    (members : List (Option Text × Json)) :
    valuesOf name (member :: members) =
      if member.1 = some name.toList then member.2 :: valuesOf name members
      else valuesOf name members := by
  rw [valuesOf, List.filter_cons]
  split
  next same => rw [if_pos (beq_iff_eq.mp same), List.map_cons, valuesOf]
  next differs => rw [if_neg fun same => differs (beq_iff_eq.mpr same), valuesOf]

theorem valuesOf_append (name : String) (before after : List (Option Text × Json)) :
    valuesOf name (before ++ after) = valuesOf name before ++ valuesOf name after := by
  rw [valuesOf, List.filter_append, List.map_append, valuesOf, valuesOf]

theorem valuesOf_eq_nil {name : String} {members : List (Option Text × Json)}
    (missing : some name.toList ∉ members.map Prod.fst) : valuesOf name members = [] := by
  rw [valuesOf, List.map_eq_nil_iff, List.filter_eq_nil_iff]
  intro member isMember same
  exact missing (List.mem_map.mpr ⟨member, isMember, beq_iff_eq.mp same⟩)

/-- A member of another name goes unnoticed. -/
theorem field?_insert_of_ne {name key : String} (differ : name ≠ key) (value : Json)
    (before after : List (Option Text × Json)) :
    field? (before ++ (some key.toList, value) :: after) name = field? (before ++ after) name := by
  have otherName : ¬ some key.toList = some name.toList := by
    rw [Option.some.injEq, String.toList_inj]
    exact differ.symm
  rw [field?, valuesOf_append, valuesOf_cons, if_neg otherName, ← valuesOf_append, field?]

theorem field?_insert {name : String} {before after : List (Option Text × Json)}
    (missing : some name.toList ∉ (before ++ after).map Prod.fst) (value : Json) :
    field? (before ++ (some name.toList, value) :: after) name = some (some value) := by
  rw [List.map_append, List.mem_append, not_or] at missing
  rw [field?, valuesOf_append, valuesOf_cons, if_pos rfl, valuesOf_eq_nil missing.1,
    valuesOf_eq_nil missing.2, List.nil_append]

theorem field?_missing {name : String} {members : List (Option Text × Json)}
    (missing : some name.toList ∉ members.map Prod.fst) : field? members name = some none := by
  rw [field?, valuesOf_eq_nil missing]

/-- The members of an object that has the given fields. -/
def membersOf (fields : List (String × Json)) : List (Option Text × Json) :=
  fields.map fun field => (some field.1.toList, field.2)

theorem mem_map_fst_membersOf {fields : List (String × Json)} {name : String} :
    some name.toList ∈ (membersOf fields).map Prod.fst ↔ name ∈ fields.map Prod.fst := by
  simp only [membersOf, List.map_map, List.mem_map, Function.comp_apply, Option.some.injEq,
    String.toList_inj]

theorem field?_membersOf {fields : List (String × Json)} (apart : (fields.map Prod.fst).Nodup)
    (name : String) : field? (membersOf fields) name = some (fields.lookup name) := by
  induction fields with
  | nil => rfl
  | cons field fields ih =>
      obtain ⟨notBehind, apartBehind⟩ := List.nodup_cons.mp apart
      by_cases same : field.1 = name
      · subst same
        have nothingBehind : valuesOf field.1 (membersOf fields) = [] :=
          valuesOf_eq_nil (mt mem_map_fst_membersOf.mp notBehind)
        rw [membersOf, List.map_cons, field?, valuesOf_cons, if_pos rfl]
        rw [membersOf] at nothingBehind
        rw [nothingBehind, List.lookup_cons, beq_self_eq_true]
      · have otherName : ¬ some field.1.toList = some name.toList := by
          rw [Option.some.injEq, String.toList_inj]
          exact same
        have later := ih apartBehind
        rw [membersOf, field?] at later
        rw [membersOf, List.map_cons, field?, valuesOf_cons, if_neg otherName, later,
          List.lookup_cons, beq_eq_false_iff_ne.mpr (Ne.symm same)]

/-- A record that was written has each of its fields under its name. -/
theorem fields?_record {fields : List (String × Json)} (apart : (fields.map Prod.fst).Nodup)
    (names : List String) (least : Nat) :
    (record fields).fields? names least = some (names.map fun name => fields.lookup name) := by
  have allNamed : (membersOf fields).all (fun member => member.1.isSome) = true := by
    simp [membersOf]
  have found : names.mapM (field? (membersOf fields)) =
      names.mapM fun name => (pure (fields.lookup name) : Option (Option Json)) :=
    congrArg (names.mapM ·) (funext fun name => field?_membersOf apart name)
  change (if (membersOf fields).all (fun member => member.1.isSome) = true then
    names.mapM (field? (membersOf fields)) else none) = _
  rw [if_pos allNamed, found, List.mapM_pure]
  rfl

theorem writable_record {fields : List (String × Json)}
    (writable : ∀ field ∈ fields, field.2.Writable) : (record fields).Writable := by
  refine .object ?_ ?_
  · intro member isMember
    obtain ⟨field, -, rfl⟩ := List.mem_map.mp isMember
    rfl
  · intro member isMember
    obtain ⟨field, isField, rfl⟩ := List.mem_map.mp isMember
    exact writable field isField

theorem writable_ofNat (number : Nat) : (ofNat number).Writable :=
  .number (Token.isNumber_ofNat number)

theorem writable_optional {value : Option Json} (writable : ∀ json ∈ value, json.Writable) :
    (optional value).Writable := by
  cases value with
  | none => exact .null
  | some json => exact writable json rfl

@[simp]
theorem string?_ofString (string : String) : string? (.ofString string) = some string :=
  congrArg some String.ofList_toList

theorem counter?_ofNat {number : Nat} (small : number < counterBound) :
    counter? (.ofNat number) = some number := by
  simp [counter?, ofNat, small]

/-- Where a field may be missing, `null` means that it is. -/
theorem nullable_optional {Value : Type} (read : Json → Option Value) (field : Option Json) :
    nullable read (some (optional field)) = nullable read field := by
  cases field <;> rfl

/-- A value that is never written as `null` is read back, present or not. -/
theorem nullable_map {Value : Type} {read : Json → Option Value} {write : Value → Json}
    {value : Option Value} (reads : ∀ present ∈ value, read (write present) = some present)
    (notNull : ∀ present ∈ value, write present ≠ .null) :
    nullable read (value.map write) = some value := by
  cases value with
  | none => rfl
  | some present =>
      rw [Option.map_some, nullable, reads present rfl, Option.map_some]
      exact notNull present rfl

theorem list?_map {Value : Type} {read : Json → Option Value} {write : Value → Json}
    {values : List Value} (reads : ∀ value ∈ values, read (write value) = some value) :
    list? read (.array (values.map write)) = some values := by
  rw [list?, List.mapM_map]
  induction values with
  | nil => rfl
  | cons value values ih =>
      rw [List.mapM_cons, Function.comp_apply, reads value List.mem_cons_self,
        ih fun other member => reads other (List.mem_cons_of_mem _ member)]
      rfl

end TidyLines.Json
