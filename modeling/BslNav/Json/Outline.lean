import BslNav.Json.Token
import BslNav.Json.Value

/-!
# BslNav.Json.Outline

What a text says before anyone asks for a value.

An outline is the structure of a JSON text in the order of reading, repeated
keys and strings without a value included.  A text that goes wrong has an
outline too: every array or object that was open at that place is marked as not
closed, and a member whose value could not be read has `broken` in its place.
A reader that takes the parts in order therefore meets the same first obstacle
as one that reads the text itself.

`Outline.toJson?` is the value of an outline.  It allows a limited number of
arrays and objects within each other.
-/

namespace BslNav

/-- The structure of a JSON text as far as it can be read. -/
inductive Outline where
  | null
  | bool (value : Bool)
  | number (value : Option Number)
  | string (value : Option String)
  | array (items : List Outline) (closed : Bool)
  | object (members : List (Option String × Outline)) (closed : Bool)
  /-- There is no value here. -/
  | broken
deriving Repr

namespace Outline

instance : Inhabited Outline := ⟨.broken⟩

/-! ## from tokens -/

/-- An array or object that is open, its parts last first. -/
inductive Frame where
  | array (items : List Outline)
  /-- An object; `key` is the key that waits for its value, if one does. -/
  | object (members : List (Option String × Outline)) (key : Option (Option String))

/-- What may come next. -/
inductive Expecting where
  | value
  /-- A value, or the end of an array without items. -/
  | firstItem
  | key
  /-- A key, or the end of an object without members. -/
  | firstKey
  | colon
  /-- A comma, or the end of what is open. -/
  | separator
deriving DecidableEq, Repr

/-- How far reading has come: inside the given frames, innermost first, or past
the end of the whole value. -/
inductive Progress where
  | inside (frames : List Frame) (expecting : Expecting)
  | done (whole : Outline)

/-- The text goes wrong: the frame is left open, and a key that waits for its
value gets none. -/
def Frame.abandon : Frame → Outline
  | .array items => .array items.reverse false
  | .object members none => .object members.reverse false
  | .object members (some key) => .object ((key, .broken) :: members).reverse false

/-- Put a finished part into the frame around it. -/
def Frame.add (part : Outline) : Frame → Frame
  | .array items => .array (part :: items)
  | .object members (some key) => .object ((key, part) :: members) none
  | .object members none => .object members none

/-- The outline of a text that goes wrong inside these frames, with `part` as
the innermost. -/
def abandonAround (part : Outline) : List Frame → Outline
  | [] => part
  | frame :: outer => abandonAround (frame.add part).abandon outer

/-- The outline of a text that goes wrong now. -/
def Progress.abandon : Progress → Outline
  | .inside [] _ => .broken
  | .inside (frame :: outer) _ => abandonAround frame.abandon outer
  | .done whole => whole

/-- A part is finished: it goes into the innermost frame, or is the whole. -/
def Progress.finish (part : Outline) : List Frame → Progress
  | [] => .done part
  | frame :: outer => .inside (frame.add part :: outer) .separator

/-- A value without parts, where a value may stand. -/
def Progress.atom (part : Outline) (frames : List Frame) (expecting : Expecting) :
    Option Progress :=
  if expecting = .value || expecting = .firstItem then some (finish part frames) else none

/-- Read one token, unless it cannot stand here. -/
def Progress.step? : Progress → Token → Option Progress
  | .done _, _ => none
  | .inside frames expecting, token =>
      match token with
      | .null => atom .null frames expecting
      | .bool b => atom (.bool b) frames expecting
      | .number n => atom (.number n) frames expecting
      | .string s =>
          match frames with
          | .object members none :: outer =>
              if expecting = .key || expecting = .firstKey then
                some (.inside (.object members (some s) :: outer) .colon)
              else none
          | _ => atom (.string s) frames expecting
      | .openArray =>
          if expecting = .value || expecting = .firstItem then
            some (.inside (.array [] :: frames) .firstItem)
          else none
      | .openObject =>
          if expecting = .value || expecting = .firstItem then
            some (.inside (.object [] none :: frames) .firstKey)
          else none
      | .closeArray =>
          match frames with
          | .array items :: outer =>
              if expecting = .firstItem || expecting = .separator then
                some (finish (.array items.reverse true) outer)
              else none
          | _ => none
      | .closeObject =>
          match frames with
          | .object members none :: outer =>
              if expecting = .firstKey || expecting = .separator then
                some (finish (.object members.reverse true) outer)
              else none
          | _ => none
      | .comma =>
          match frames with
          | .array _ :: _ => if expecting = .separator then some (.inside frames .value) else none
          | .object .. :: _ => if expecting = .separator then some (.inside frames .key) else none
          | [] => none
      | .colon => if expecting = .colon then some (.inside frames .value) else none
      | .bad => none

/-- Read the rest of the tokens: the outline, and whether the text ends where
its value does. -/
def Progress.read : Progress → List Token → Outline × Bool
  | .done whole, [] => (whole, true)
  | progress, [] => (progress.abandon, false)
  | progress, token :: tokens =>
      match progress.step? token with
      | some next => next.read tokens
      | none => (progress.abandon, false)

/-- The outline of a text, and whether the text ends where its value does. -/
def ofText (text : String) : Outline × Bool :=
  (Progress.inside [] .value).read (Token.ofText text)

/-! ## values -/

mutual

/-- The value of an outline, with at most `depth` arrays and objects within each
other.  Of repeated keys the last counts. -/
def toJson? (depth : Nat) : Outline → Option Json
  | .null => some .null
  | .bool b => some (.bool b)
  | .number n => n.map .number
  | .string s => s.map .string
  | .array items closed =>
      match depth with
      | 0 => none
      | depth + 1 => if closed then (itemsToJson? depth items).map .array else none
  | .object members closed =>
      match depth with
      | 0 => none
      | depth + 1 => if closed then (membersToJson? depth [] members).map .object else none
  | .broken => none

/-- The values of the items of an array. -/
def itemsToJson? (depth : Nat) : List Outline → Option (List Json)
  | [] => some []
  | item :: items => do
      let value ← toJson? depth item
      let values ← itemsToJson? depth items
      some (value :: values)

/-- The members of an object, added to the ones read before. -/
def membersToJson? (depth : Nat) (before : Members) :
    List (Option String × Outline) → Option Members
  | [] => some before
  | (key, item) :: members => do
      let key ← key
      let value ← toJson? depth item
      membersToJson? depth (Json.setMember key value before) members

end

end Outline

/-- How many arrays and objects may stand within each other in a text that is
read as one value. -/
def Json.maxDepth : Nat := 127

/-- The value of a text. -/
def Json.ofText? (text : String) : Option Json :=
  match Outline.ofText text with
  | (outline, true) => outline.toJson? Json.maxDepth
  | (_, false) => none

end BslNav
