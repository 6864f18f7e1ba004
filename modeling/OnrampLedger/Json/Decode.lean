import OnrampLedger.Json.Read
import OnrampLedger.Money.Decimal.Parse
import OnrampLedger.Text.Case

/-!
# Decoding JSON into records

A record is read from a JSON object through a table of its fields. Each member of the
object, in order, goes to the field it names: the field whose name equals the key, else
the first whose name equals it up to case. Members that name no field are passed over;
when a key comes twice the later member has the last word, and a nested record takes
both members in turn, so their fields merge.

Decoding fails in one of three ways, and the first failure in document order is the
one reported:

* the text is not one JSON value (`malformed`), found before anything is decoded;
* a value of the wrong kind for its field (`mistyped`);
* a value that a field refuses outright (`refused`), such as a decimal field given text
  that is no number.

`null` changes nothing: a field given `null` keeps what it had.
-/

namespace OnrampLedger

namespace Json

/-- Why a record could not be decoded. -/
inductive DecodeError
  /-- The text is not a JSON value. -/
  | malformed
  /-- Some value had the wrong kind for its field. -/
  | mistyped
  /-- A field refused its value. -/
  | refused
  deriving DecidableEq, Repr

/-- A field of a record of type `α`: its name, and how it takes a value, giving the
record after it or the reason the value does not fit. -/
structure Field (α : Type) where
  name : String
  take : Json → α → Except DecodeError α

/-- The field a key goes to: an exact match first, else a match up to case. -/
def Field.find? {α : Type} (fields : List (Field α)) (key : String) : Option (Field α) :=
  match fields.find? (·.name == key) with
  | some f => some f
  | none => fields.find? fun f => Text.equalFold f.name key

/-- Hands object members in order to the fields they name. -/
def takeMembers {α : Type} (fields : List (Field α)) : List (String × Json) → α → Except DecodeError α
  | [], a => .ok a
  | (k, v) :: ms, a =>
    match Field.find? fields k with
    | none => takeMembers fields ms a
    | some f => f.take v a >>= takeMembers fields ms

/-- Decodes a record from a value: an object's members through the fields, `null` as
nothing, any other value as one of the wrong kind. -/
def takeRecord {α : Type} (fields : List (Field α)) (v : Json) (a : α) : Except DecodeError α :=
  match v with
  | .object ms => takeMembers fields ms a
  | .null => .ok a
  | _ => .error .mistyped

/-- A text field. -/
def Field.text {α : Type} (name : String) (set : α → String → α) : Field α :=
  ⟨name, fun v a =>
    match v with
    | .string s _ => .ok (set a s)
    | .null => .ok a
    | _ => .error .mistyped⟩

/-- The decimal a field is given: `none` keeps the field as it is, and an error refuses
the value. A string is read from the characters between its quotes as written, so one
written with escapes is refused. -/
def decimalOf : Json → Except Unit (Option Decimal)
  | .null => .ok none
  | .number t => (Decimal.ofJsonText t).mapError fun _ => ()
  | .string s escaped =>
    if escaped then .error ()
    else (Decimal.ofJsonText ("\"" ++ s ++ "\"")).mapError fun _ => ()
  | _ => .error ()

/-- A decimal field. -/
def Field.decimal {α : Type} (name : String) (set : α → Decimal → α) : Field α :=
  ⟨name, fun v a =>
    match decimalOf v with
    | .ok (some d) => .ok (set a d)
    | .ok none => .ok a
    | .error _ => .error .refused⟩

/-- A field holding a nested record read through its own fields. -/
def Field.record {α β : Type} (name : String) (fields : List (Field β)) (get : α → β)
    (set : α → β → α) : Field α :=
  ⟨name, fun v a => (takeRecord fields v (get a)).map (set a)⟩

/-- Decodes a record, starting from `zero`, from a value already read. -/
def decodeValue {α : Type} (fields : List (Field α)) (zero : α) (v : Json) : Except DecodeError α :=
  takeRecord fields v zero

/-- Decodes a record from a whole document. -/
def decodeDocument {α : Type} (fields : List (Field α)) (zero : α) (bs : List UInt8) :
    Except DecodeError α :=
  match parse? bs with
  | none => .error .malformed
  | some v => decodeValue fields zero v

/-- Decodes a record from the first value of a stream. -/
def decodeFirst {α : Type} (fields : List (Field α)) (zero : α) (bs : List UInt8) :
    Except DecodeError α :=
  match parseFirst? bs with
  | none => .error .malformed
  | some v => decodeValue fields zero v

end Json

end OnrampLedger
