import TidyLines.Toml

/-!
# Tables of TOML while they are being written

A document may add to a table in several places, but may not define anything twice.  A draft keeps
for each table how it came to be, which decides what may still be added to it.
-/

namespace TidyLines.Toml

/-- How a table came to be. -/
inductive Origin where
  | header
  /-- By the header of a table inside it. -/
  | inner
  | dotted
  deriving DecidableEq

/-- Something under a key of a table that is being written. -/
inductive Draft where
  | value (value : Value)
  | table (origin : Origin) (entries : List (String × Draft))
  /-- The tables of an array of tables, the last one first. -/
  | tables (reversed : List (List (String × Draft)))

/-- The entries of a table that is being written. -/
abbrev Entries := List (String × Draft)

namespace Entries

/-- What a table has under a key. -/
def get? (entries : Entries) (key : String) : Option Draft := List.lookup key entries

/-- Replaces what is under a key, or adds the key at the end. -/
def set (entries : Entries) (key : String) (draft : Draft) : Entries :=
  match entries with
  | [] => [(key, draft)]
  | entry :: others =>
    if entry.1 == key then (key, draft) :: others else entry :: set others key draft

/-- Removes a key. -/
def erase (entries : Entries) (key : String) : Entries :=
  entries.filter fun entry => entry.1 != key

/-- Adds a value under a dotted key: first the keys on the way, then the last key.  Tables on the
way must not have headers of their own, and the innermost one must come from dotted keys. -/
def addDotted (entries : Entries) (way : List String) (key : String) (value : Value) :
    Option Entries :=
  match way with
  | [] => if (entries.get? key).isSome then none else some (entries ++ [(key, .value value)])
  | [step] =>
    match entries.get? step with
    | none => do
      let inner ← addDotted [] [] key value
      return entries.set step (.table .dotted inner)
    | some (.table .dotted inner) => do
      let inner ← addDotted inner [] key value
      return entries.set step (.table .dotted inner)
    | some _ => none
  | step :: others =>
    match entries.get? step with
    | none => do
      let inner ← addDotted [] others key value
      return entries.set step (.table .dotted inner)
    | some (.table .header _) => none
    | some (.table origin inner) => do
      let inner ← addDotted inner others key value
      return entries.set step (.table origin inner)
    | some (.tables (last :: earlier)) => do
      let last ← addDotted last others key value
      return entries.set step (.tables (last :: earlier))
    | some _ => none

/-- Changes the table to which the keys of a header lead.  Missing tables are added on the way, and
of an array of tables the last one is meant. -/
def changeAt (entries : Entries) (way : List String) (change : Entries → Option Entries) :
    Option Entries :=
  match way with
  | [] => change entries
  | step :: others =>
    match entries.get? step with
    | none => do
      let inner ← changeAt [] others change
      return entries.set step (.table .inner inner)
    | some (.table origin inner) => do
      let inner ← changeAt inner others change
      return entries.set step (.table origin inner)
    | some (.tables (last :: earlier)) => do
      let last ← changeAt last others change
      return entries.set step (.tables (last :: earlier))
    | some _ => none

/-- Opens a table under its header.  It may be there already if only a table inside it had a
header; then it moves behind its neighbours. -/
def openTable (key : String) (entries : Entries) : Option Entries :=
  match entries.get? key with
  | none => some (entries ++ [(key, .table .header [])])
  | some (.table .inner inner) => some (entries.erase key ++ [(key, .table .header inner)])
  | some _ => none

/-- Opens the next table of an array of tables. -/
def openNext (key : String) (entries : Entries) : Option Entries :=
  match entries.get? key with
  | none => some (entries ++ [(key, .tables [[]])])
  | some (.tables earlier) => some (entries.set key (.tables ([] :: earlier)))
  | some _ => none

mutual

/-- The entries of a finished table. -/
def finish (form : TableForm) : Entries → List (String × Value)
  | [] => []
  | (key, draft) :: others => (key, finishDraft form draft) :: finish form others

/-- The finished value of a draft. -/
def finishDraft (form : TableForm) : Draft → Value
  | .value value => value
  | .table _ entries => .table form (finish form entries)
  | .tables reversed => .array (finishTables form reversed [])

/-- The finished tables of an array of tables, put in front of those that are finished already. -/
def finishTables (form : TableForm) : List Entries → List Value → List Value
  | [], finished => finished
  | entries :: others, finished =>
    finishTables form others (.table form (finish form entries) :: finished)

end

end Entries
end TidyLines.Toml
