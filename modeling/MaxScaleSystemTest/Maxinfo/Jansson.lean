import MaxScaleSystemTest.Lib.Json
import MaxScaleSystemTest.Lib.RefCount

namespace MaxScaleSystemTest.Maxinfo

open CString Json RefCount

/-!
# The JSON library, as the MaxInfo client uses it

jansson is not part of the repository; this file states what it documents.  Values are
counted cells; `true`, `false` and `null` are constants that are not counted.
`json_loads` gives a reference to the root that the caller owns, `json_object_get` a borrowed
one.

* `JsonDocument` — a parsed text: every count is right, and the root is all that is held;
* `JsonDocument.member_cases` — what a member of the root can be.
-/

/-- A `json_t *` that is not NULL: to a constant, or to a cell. -/
inductive JsonRef where
  | constant (c : Constant)
  | cell (addr : ℕ)
  deriving DecidableEq

/-- The value in a cell. -/
abbrev JsonValue := Node JsonRef

/-- The cell a reference is to. -/
def JsonRef.addr? : JsonRef → Option ℕ
  | .constant _ => none
  | .cell a => some a

/-- The counted references in a value. -/
def JsonValue.children : JsonValue → List ℕ
  | .object members => members.filterMap fun m => m.2.addr?
  | .array elements => elements.filterMap JsonRef.addr?
  | _ => []

/-- `json_typeof`; `none` when the cell is not there. -/
def jsonTypeof (h : Heap JsonValue) : JsonRef → Option ℕ
  | .constant c => some c.type
  | .cell a => (find h a).map fun c => c.value.type

/-- `json_integer_value`, which is 0 for other values; `none` when the cell is not there. -/
def jsonIntegerValue (h : Heap JsonValue) : JsonRef → Option Int64
  | .constant _ => some 0
  | .cell a => (find h a).map fun c => match c.value with
    | .integer n => n
    | _ => 0

/-- `json_object_get`; `none` for a NULL result. -/
def jsonObjectGet (h : Heap JsonValue) (object : JsonRef) (key : Bytes) : Option JsonRef := do
  let a ← object.addr?
  let c ← find h a
  c.value.get key

/-- The outcome of a successful `json_loads`. -/
structure JsonDocument where
  heap : Heap JsonValue
  root : ℕ
  sound : Sound JsonValue.children heap [root]
  acyclic : Acyclic JsonValue.children heap

/-- `json_error_t`. -/
structure JsonError where
  line : ℤ
  text : Bytes

/-- The integer that is a member of the root, if it is one. -/
def JsonDocument.integer? (doc : JsonDocument) (key : Bytes) : Option Int64 := do
  let ref ← jsonObjectGet doc.heap (.cell doc.root) key
  let a ← ref.addr?
  let c ← find doc.heap a
  match c.value with
  | .integer n => some n
  | _ => none

/-- What is borrowed from the root is there. -/
theorem JsonDocument.find_member (doc : JsonDocument) {key : Bytes} {a : ℕ}
    (h : jsonObjectGet doc.heap (.cell doc.root) key = some (.cell a)) :
    ∃ c, find doc.heap a = some c := by
  by_contra hnone
  have hgone : find doc.heap a = none := by
    rw [Option.eq_none_iff_forall_ne_some]
    exact fun c hc => hnone ⟨c, hc⟩
  unfold jsonObjectGet at h
  obtain ⟨b, -, h⟩ := Option.bind_eq_some_iff.mp h
  obtain ⟨c, hfind, h⟩ := Option.bind_eq_some_iff.mp h
  cases hvalue : c.value with
  | object members =>
    rw [hvalue] at h
    obtain ⟨⟨key', ref⟩, hmember, href⟩ := Option.map_eq_some_iff.mp h
    have hlink : a ∈ JsonValue.children c.value := by
      rw [hvalue]
      refine List.mem_filterMap.mpr ⟨_, List.mem_of_find?_eq_some hmember, ?_⟩
      rw [href]
      rfl
    have hpos : 0 < links JsonValue.children doc.heap a :=
      links_pos (mem_of_find hfind).1 hlink
    obtain ⟨d, hd, haddr⟩ := doc.sound.live a (by rw [owners]; omega)
    exact find_eq_none_iff.mp hgone d hd haddr
  | _ =>
    rw [hvalue] at h
    cases h

/-- A member of the root is missing, or has another type than an integer, or is an integer. -/
theorem JsonDocument.member_cases (doc : JsonDocument) (key : Bytes) :
    (jsonObjectGet doc.heap (.cell doc.root) key = none ∧ doc.integer? key = none) ∨
      (∃ ref type, jsonObjectGet doc.heap (.cell doc.root) key = some ref ∧
        jsonTypeof doc.heap ref = some type ∧ type ≠ JSON_INTEGER ∧ doc.integer? key = none) ∨
      ∃ a n, jsonObjectGet doc.heap (.cell doc.root) key = some (.cell a) ∧
        jsonTypeof doc.heap (.cell a) = some JSON_INTEGER ∧
        jsonIntegerValue doc.heap (.cell a) = some n ∧ doc.integer? key = some n := by
  cases hget : jsonObjectGet doc.heap (.cell doc.root) key with
  | none => exact .inl ⟨rfl, by simp [integer?, hget]⟩
  | some ref =>
    refine .inr ?_
    cases ref with
    | constant c =>
      refine .inl ⟨_, c.type, rfl, rfl, ?_, by simp [integer?, hget, JsonRef.addr?]⟩
      cases c <;> decide
    | cell a =>
      obtain ⟨c, hfind⟩ := doc.find_member hget
      have hinteger : doc.integer? key = match c.value with
          | .integer n => some n
          | _ => none := by
        simp [integer?, hget, JsonRef.addr?, hfind]
      have htype : jsonTypeof doc.heap (.cell a) = some c.value.type := by simp [jsonTypeof, hfind]
      cases hvalue : c.value with
      | integer n =>
        rw [hvalue] at hinteger htype
        exact .inr ⟨a, n, rfl, htype, by simp [jsonIntegerValue, hfind, hvalue], hinteger⟩
      | _ =>
        rw [hvalue] at hinteger htype
        exact .inl ⟨_, _, rfl, htype, by simp [Node.type, JSON_INTEGER], hinteger⟩

end MaxScaleSystemTest.Maxinfo
