import SimpleLedger.Bytes
import SimpleLedger.Message.Error

namespace SimpleLedger

/-- All fields, and the place of the first that has not been taken. -/
structure FieldCursor where
  fields : List Bytes
  position : Nat
deriving DecidableEq

namespace FieldCursor

/-- The cursor before the first of some fields. -/
def ofFields (fields : List Bytes) : FieldCursor :=
  ⟨fields, 0⟩

/-- Takes the next field; without one, the field is missing by its name. -/
def next (name : String) (cursor : FieldCursor) : Except DecodeError Bytes × FieldCursor :=
  match cursor.fields[cursor.position]? with
  | some field => (.ok field, { cursor with position := cursor.position + 1 })
  | none => (.error (.missingField name), cursor)

/-- How many fields have not been taken. Past the end of the fields there is no such number. -/
def remaining? (cursor : FieldCursor) : Option Nat :=
  if cursor.position ≤ cursor.fields.length then
    some (cursor.fields.length - cursor.position)
  else none

/-- Takes all the fields there are. Past their end nothing can be cut off. -/
def rest? (cursor : FieldCursor) : Option (List Bytes × FieldCursor) :=
  if cursor.position ≤ cursor.fields.length then
    some (cursor.fields.drop cursor.position, { cursor with position := cursor.fields.length })
  else none

/-- Fails unless every field has been taken. -/
def finish? (transactionType : String) (cursor : FieldCursor) : Option (Except DecodeError Unit) :=
  cursor.remaining?.map fun count =>
    if count = 0 then .ok () else .error (.trailingData transactionType count)

end FieldCursor

end SimpleLedger
