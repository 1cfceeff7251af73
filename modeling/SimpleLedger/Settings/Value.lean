import SimpleLedger.Decimal.Binary64
import SimpleLedger.Text.Shown

namespace SimpleLedger.Settings

/-- A value that a file or the environment gives, or nothing, at a place of an array that is not
given. -/
inductive Value where
  | nothing
  | bool (value : Bool)
  | int (value : Int)
  | float (value : Binary64)
  | text (value : String)
  | array (items : List Value)
  | table (entries : List (String × Value))

namespace Value

/-- The entries of a table. Nothing else has any. -/
def entries : Value → List (String × Value)
  | table entries => entries
  | _ => []

/-- The items of an array. Nothing else has any. -/
def items : Value → List Value
  | array items => items
  | _ => []

def isTable : Value → Bool
  | table _ => true
  | _ => false

/-- Entries with one of them set. -/
def setEntry (key : String) (value : Value) : List (String × Value) → List (String × Value)
  | [] => [(key, value)]
  | (other, kept) :: rest =>
    if other = key then (key, value) :: rest else (other, kept) :: setEntry key value rest

theorem lookup_setEntry (key other : String) (value : Value) (entries : List (String × Value)) :
    (setEntry key value entries).lookup other =
      if other = key then some value else entries.lookup other := by
  induction entries with
  | nil =>
    by_cases h : other = key
    · simp [setEntry, h]
    · simp [setEntry, List.lookup_cons, h, beq_eq_false_iff_ne.mpr h]
  | cons entry rest ih =>
    obtain ⟨name, kept⟩ := entry
    by_cases hn : name = key
    · subst hn
      by_cases h : other = name
      · simp [setEntry, h]
      · simp [setEntry, List.lookup_cons, h, beq_eq_false_iff_ne.mpr h]
    · by_cases h : other = name
      · subst h
        simp [setEntry, hn]
      · simp [setEntry, List.lookup_cons, hn, beq_eq_false_iff_ne.mpr h, ih]

mutual

/-- Lays a value over another: a table changes the entries it has, and anything else replaces the
whole. -/
def merge (base : Value) : Value → Value
  | table entries => mergeEntries base entries
  | value => value

/-- Lays entries over a value, which becomes a table if it is none. -/
def mergeEntries (base : Value) : List (String × Value) → Value
  | [] => base
  | (key, value) :: rest =>
    let inner := (base.entries.lookup key).getD (table [])
    mergeEntries (table (setEntry key (merge inner value) base.entries)) rest

end

/-- A key in lower case. Only keys of ASCII letters name settings, and one character outside ASCII,
the Kelvin sign, has such a letter for its lower case. -/
def loweredKey (key : String) : String :=
  String.ofList (key.toList.map fun c => if c.toNat = 0x212a then 'k' else c.toLower)

mutual

/-- A value with the keys of its tables in lower case. -/
def lowered : Value → Value
  | table entries => table (loweredEntries entries)
  | value => value

/-- Entries with all keys in lower case. -/
def loweredEntries : List (String × Value) → List (String × Value)
  | [] => []
  | (key, value) :: rest =>
    (loweredKey key, lowered value) :: loweredEntries rest

end

/-- The whole word that a value gives. A truth value is one or zero, a number is rounded and held in
range, and a text is a word for a truth value or a number; a negative whole number gives none. -/
def word? : Value → Option Nat
  | bool value => some (if value then 1 else 0)
  | int value => if 0 ≤ value then some value.toNat else none
  | float value => some value.toWord
  | text value =>
    let lower := String.ofList (value.toList.map Char.toLower)
    if lower = "true" ∨ lower = "on" ∨ lower = "yes" then some 1
    else if lower = "false" ∨ lower = "off" ∨ lower = "no" then some 0
    else Text.word? value
  | array _ => none
  | table _ => none
  | nothing => none

def text? : Value → Option String
  | bool value => some (if value then "true" else "false")
  | int value => some (toString value)
  | float value => some value.text
  | text value => some value
  | array _ => none
  | table _ => none
  | nothing => none

/-- A number as text, always with a point if it is finite. -/
def pointed (value : Binary64) : String :=
  match value with
  | .finite _ _ _ => if value.text.toList.contains '.' then value.text else value.text ++ ".0"
  | _ => value.text

/-- What a value is called where another kind was expected. -/
def described : Value → String
  | nothing => "unit value"
  | bool value => "boolean \x60" ++ (if value then "true" else "false") ++ "\x60"
  | int value => "integer \x60" ++ toString value ++ "\x60"
  | float value => "floating point \x60" ++ pointed value ++ "\x60"
  | text value => "string " ++ Text.quoted value
  | array _ => "sequence"
  | table _ => "map"

end Value

end SimpleLedger.Settings
