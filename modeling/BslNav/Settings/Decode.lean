import BslNav.Json.Outline
import BslNav.Settings.Choice

/-!
# BslNav.Settings.Decode

Records read from JSON.

A record is written as an object of its fields, or as an array of them in the
order of declaration.  Fields that are absent keep their defaults; keys without
a field are passed over together with their values.  Parts are taken in the
order in which they stand, and the first obstacle is the answer.

The same readers serve two forms of JSON: a value, and the outline of a text
that may go wrong further on.  `View` is what both show of themselves.
-/

namespace BslNav

/-- Why JSON does not give the record asked for. -/
inductive DecodeError where
  /-- The text is no JSON, or a part of it has no value. -/
  | malformed
  /-- A value of another type stands there. -/
  | wrongType
  | duplicateKey (key : String)
  /-- The array is longer than the record. -/
  | tooLong
  | unknownValue (e : UnknownValue)
deriving DecidableEq, Repr

/-- The outermost layer of a piece of JSON of form `β`. -/
inductive View (β : Type) where
  | null
  | bool (value : Bool)
  | number
  | string (value : Option String)
  | array (items : List β) (closed : Bool)
  | object (members : List (Option String × β)) (closed : Bool)
  | broken

/-- A form of JSON that records can be read from. -/
class Readable (β : Type) where
  view : β → View β
  /-- The whole as one value, where a record leaves the form of its parts
  open. -/
  value? : β → Option Json

instance : Readable Json where
  view
    | .null => .null
    | .bool b => .bool b
    | .number _ => .number
    | .string s => .string (some s)
    | .array items => .array items true
    | .object members => .object (members.map fun (k, v) => (some k, v)) true
  value? := some

/-- Two layers lie around an open value in a section that is read from its
text: the section and the map. -/
instance : Readable Outline where
  view
    | .null => .null
    | .bool b => .bool b
    | .number _ => .number
    | .string s => .string s
    | .array items closed => .array items closed
    | .object members closed => .object members closed
    | .broken => .broken
  value? := Outline.toJson? (Json.maxDepth - 2)

namespace Readable

variable {β : Type} [Readable β]

def string (b : β) : Except DecodeError String :=
  match view b with
  | .string (some s) => .ok s
  | .string none | .broken => .error .malformed
  | _ => .error .wrongType

def bool (b : β) : Except DecodeError Bool :=
  match view b with
  | .bool v => .ok v
  | .broken => .error .malformed
  | _ => .error .wrongType

/-- A string or nothing. -/
def string? (b : β) : Except DecodeError (Option String) :=
  match view b with
  | .null => .ok none
  | _ => (string b).map some

/-- One of a few named values. -/
def choice (α : Type) [Choice α] (b : β) : Except DecodeError α := do
  let text ← string b
  match Choice.parse α text with
  | .ok a => .ok a
  | .error e => .error (.unknownValue e)

/-- The members of a free-form object, added to the ones read before.  Of
repeated keys the last counts. -/
def membersFrom (before : JsonMap) (closed : Bool) :
    List (Option String × β) → Except DecodeError JsonMap
  | [] => if closed then .ok before else .error .malformed
  | (some key, b) :: rest =>
      match value? b with
      | some v => membersFrom (before.insert key v) closed rest
      | none => .error .malformed
  | (none, _) :: _ => .error .malformed

/-- A free-form object. -/
def members (b : β) : Except DecodeError JsonMap :=
  match view b with
  | .object ms closed => membersFrom ∅ closed ms
  | .broken => .error .malformed
  | _ => .error .wrongType

end Readable

/-! ## records -/

/-- A field of the record `σ`: its key, and how a piece of JSON becomes its
value. -/
structure Field (β σ : Type) where
  key : String
  store : β → σ → Except DecodeError σ

/-- The field that `read` reads and `set` puts in place. -/
def Field.of {β σ α : Type} (key : String) (read : β → Except DecodeError α) (set : α → σ → σ) :
    Field β σ :=
  ⟨key, fun b s => (read b).map (set · s)⟩

namespace Record

variable {β σ : Type}

/-- Read fields in the order of declaration, as far as the items go. -/
def ofItems (closed : Bool) : List (Field β σ) → List β → σ → Except DecodeError σ
  | _, [], s => if closed then .ok s else .error .malformed
  | [], _ :: _, _ => .error .tooLong
  | f :: fs, b :: bs, s => do ofItems closed fs bs (← f.store b s)

/-- Read fields by their keys, `seen` being the keys read before. -/
def ofMembers (closed : Bool) (fields : List (Field β σ)) (seen : List String) :
    List (Option String × β) → σ → Except DecodeError σ
  | [], s => if closed then .ok s else .error .malformed
  | (none, _) :: _, _ => .error .malformed
  | (some key, b) :: rest, s =>
      match fields.find? (·.key = key) with
      | none => ofMembers closed fields seen rest s
      | some f =>
          if key ∈ seen then .error (.duplicateKey key)
          else do ofMembers closed fields (key :: seen) rest (← f.store b s)

/-- Read a record, absent fields being those of `base`. -/
def read [Readable β] (fields : List (Field β σ)) (base : σ) (b : β) : Except DecodeError σ :=
  match Readable.view b with
  | .array items closed => ofItems closed fields items base
  | .object members closed => ofMembers closed fields [] members base
  | .broken => .error .malformed
  | _ => .error .wrongType

end Record

/-- Read a text as a whole: nothing but blanks may follow the value. -/
def readText {α : Type} (read : Outline → Except DecodeError α) (text : String) :
    Except DecodeError α := do
  let (outline, complete) := Outline.ofText text
  let a ← read outline
  if complete then .ok a else .error .malformed

end BslNav
