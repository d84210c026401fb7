import BuildLog.Number.Double

/-!
# JSON values

* `Json`: any value that a document can hold. Whole numbers are kept apart from those with a fraction or
  an exponent, and the members of an object keep their order;
* `Json.whole?`: a value of a document with all its texts, if none of them holds half of a surrogate pair;
* `Json.put`: a member set in a list of members: a repeated name takes the later value and keeps its
  first place;
* `Json.Room`: how deep values may be nested, where they are read and where they are shown.
-/

namespace BuildLog

/-- A JSON value. In a document, rows of code points stand in place of texts. -/
inductive Json (τ : Type := Text) where
  /-- The empty value. -/
  | null
  /-- A truth value. -/
  | bool (value : Bool)
  /-- A whole number. -/
  | int (value : Int)
  /-- A number with a fraction or an exponent, or one that is not finite. -/
  | double (value : Double)
  /-- A text. -/
  | string (value : τ)
  /-- A list of values. -/
  | array (items : List (Json τ))
  /-- Named values. -/
  | object (members : List (τ × Json τ))

namespace Json

/-! ## Texts in values -/

section

variable {τ σ : Type}

mutual

/-- A value with other texts. -/
def map (f : τ → σ) : Json τ → Json σ
  | null => null
  | bool value => bool value
  | int value => int value
  | double value => double value
  | string value => string (f value)
  | array items => array (mapItems f items)
  | object members => object (mapMembers f members)

/-- The items of a list with other texts. -/
def mapItems (f : τ → σ) : List (Json τ) → List (Json σ)
  | [] => []
  | item :: items => item.map f :: mapItems f items

/-- The members of an object with other texts. -/
def mapMembers (f : τ → σ) : List (τ × Json τ) → List (σ × Json σ)
  | [] => []
  | (name, value) :: members => (f name, value.map f) :: mapMembers f members

end

mutual

/-- Whether all texts in a value are of a kind. -/
def all (p : τ → Bool) : Json τ → Bool
  | string value => p value
  | array items => allItems p items
  | object members => allMembers p members
  | _ => true

/-- Whether all texts in the items of a list are of a kind. -/
def allItems (p : τ → Bool) : List (Json τ) → Bool
  | [] => true
  | item :: items => item.all p && allItems p items

/-- Whether all texts in the members of an object are of a kind. -/
def allMembers (p : τ → Bool) : List (τ × Json τ) → Bool
  | [] => true
  | (name, value) :: members => p name && value.all p && allMembers p members

end

/-- The value with its texts, if they are all made of characters. -/
def whole? (value : Json Codes) : Option Json :=
  if value.all Codes.isWhole then some (value.map Codes.text) else none

/-! ## Members -/

/-- The value of a member. -/
def member? [BEq τ] (name : τ) : List (τ × Json τ) → Option (Json τ)
  | [] => none
  | (key, value) :: rest => if key == name then some value else member? name rest

/-- The members with one of them set. -/
def put [BEq τ] (members : List (τ × Json τ)) (name : τ) (value : Json τ) : List (τ × Json τ) :=
  match members with
  | [] => [(name, value)]
  | (key, old) :: rest =>
    if key == name then (key, value) :: rest else (key, old) :: put rest name value

/-- The members of a document in the order of their names, each name once. -/
def distinctMembers [BEq τ] (members : List (τ × Json τ)) : List (τ × Json τ) :=
  members.foldl (fun seen entry => put seen entry.1 entry.2) []

end

/-- How many lists and objects may stand inside each other. This depends on what else is going on: nested
values are read and shown with what is left of the stack, which is not the same in both places. -/
structure Room where
  /-- How many levels of a document are read inside the outermost one. -/
  reading : Nat
  /-- How many levels that are not empty are shown. -/
  showing : Nat
  deriving DecidableEq

end Json
end BuildLog
