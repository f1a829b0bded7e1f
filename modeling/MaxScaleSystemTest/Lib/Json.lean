import MaxScaleSystemTest.Lib.CString

namespace Json

open CString

/-!
# JSON values

A value holds its members through references.  In a text that has been parsed these are the
members themselves, and a `json_t *` is an `Option Value`, with `none` for NULL; where references
are counted they are addresses.  The functions of the C library take NULL, and values of another
type than they expect, and give NULL, 0 or false for them.

* `Node.get`, `Node.elements` — what an object or an array refers to;
* `elements` — what an array holds, and nothing for everything else;
* `arrayGet_eq` — a member of an array, told from its elements.
-/

/-- The values that are shared by all texts. -/
inductive Constant where
  | jsonTrue
  | jsonFalse
  | jsonNull
  deriving DecidableEq

/-- All other values; `Ref` is what refers to a member. -/
inductive Node (Ref : Type) where
  | object (members : List (Bytes × Ref))
  | array (elements : List Ref)
  | string (value : Bytes)
  | integer (value : Int64)
  | real

/-- `JSON_INTEGER`. -/
def JSON_INTEGER : ℕ := 3

/-- The type of a constant. -/
def Constant.type : Constant → ℕ
  | .jsonTrue => 5
  | .jsonFalse => 6
  | .jsonNull => 7

namespace Node

variable {Ref : Type}

/-- The type of a value. -/
def type : Node Ref → ℕ
  | .object _ => 0
  | .array _ => 1
  | .string _ => 2
  | .integer _ => JSON_INTEGER
  | .real => 4

/-- What an object refers to under a key. -/
def get (key : Bytes) : Node Ref → Option Ref
  | .object members => (members.find? fun m => m.1 = key).map Prod.snd
  | _ => none

/-- What an array refers to. -/
def elements : Node Ref → List Ref
  | .array elements => elements
  | _ => []

end Node

/-! ### Parsed texts -/

/-- A value with its members. -/
inductive Value where
  | constant (c : Constant)
  | node (n : Node Value)

/-- An object. -/
abbrev Value.object (members : List (Bytes × Value)) : Value := .node (.object members)

/-- An array. -/
abbrev Value.array (elements : List Value) : Value := .node (.array elements)

/-- A string. -/
abbrev Value.string (value : Bytes) : Value := .node (.string value)

/-- The elements of an array. -/
def elements : Option Value → List Value
  | some (.node n) => n.elements
  | _ => []

/-- `json_array_get`. -/
def arrayGet : Option Value → (index : ℕ) → Option Value
  | some (.node n), index => n.elements[index]?
  | _, _ => none

/-- `json_object_get`. -/
def objectGet : Option Value → (key : Bytes) → Option Value
  | some (.node n), key => n.get key
  | _, _ => none

/-- `json_is_true`. -/
def isTrue : Option Value → Bool
  | some (.constant .jsonTrue) => true
  | _ => false

/-- `json_string_value`. -/
def stringValue : Option Value → Option Bytes
  | some (.node (.string value)) => some value
  | _ => none

theorem arrayGet_eq (v : Option Value) (index : ℕ) : arrayGet v index = (elements v)[index]? := by
  unfold arrayGet elements
  split <;> simp_all

/-- NULL has no members. -/
@[simp] theorem objectGet_none (key : Bytes) : objectGet none key = none := rfl

@[simp] theorem isTrue_none : isTrue none = false := rfl

end Json
