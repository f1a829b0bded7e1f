import MaxScaleSystemTest.Lib.Decimal
import MaxScaleSystemTest.Maxinfo.Jansson
import Mathlib.Data.List.Basic

namespace MaxScaleSystemTest.Cdc.Datatypes

open CString Maxinfo RefCount

/-!
# The test of the data types

`run_test` inserts some values of every type, and reads the rows back from the stream of the
Avro router.  A row that cannot be read is only reported.

* `testType_eq`, `runTest_eq_true_iff` — which outcomes make the test pass;
* `inserted_of_mem` — every value that is compared has been sent to the server;
* `cdc_datatypes_verdict_iff` — when a pass means that all values were read and were right.
-/

/-! ### Values -/

/-- The byte `"`. -/
def doubleQuote : UInt8 := 34

/-- The byte `'`. -/
def singleQuote : UInt8 := 39

/-- `TestInput::TestInput`: the value that is compared, without its quotes. -/
def testInput (value : Bytes) : Bytes :=
  if value.head? = some doubleQuote ∨ value.head? = some singleQuote then
    (value.drop 1).take (value.length - 2)
  else value

section

variable (jsonLoads : Bytes → Except JsonError JsonDocument)
  (realText : JsonDocument → ℕ → Bytes)

/-- The text that `TestOutput` makes of a JSON value; `realText` gives what the stream prints for
    the real number in a cell. -/
def valueText (doc : JsonDocument) : JsonRef → Bytes
  | .constant .jsonNull => ascii "NULL"
  | .constant _ => []
  | .cell a =>
    match (find doc.heap a).map Cell.value with
    | some (.string value) => if (cut value).length = 0 then ascii "NULL" else cut value
    | some (.integer n) => Decimal.ofInt n.toInt
    | some .real => realText doc a
    | _ => []

/-- `TestOutput::TestOutput`: the value of a row; it is empty when there is none. -/
def testOutput (input name : Bytes) : Bytes :=
  -- `input.c_str()`
  match jsonLoads (cut input) with
  | .error _ => []
  | .ok doc =>
    match jsonObjectGet doc.heap (.cell doc.root) name with
    | none => []
    | some value => valueText realText doc value

end

/-! ### The test -/

/-- An entry of `test_set`: the types, and the values that each of them is tested with. -/
structure TestSet where
  types : List Bytes
  values : List Bytes

/-- What becomes of the connection for one type: the results of `createConnection` and
    `requestData`, and the row that each `readRow` gets (`none` when it fails). -/
structure TypeOutcomes where
  created : Bool
  requested : Bool
  read : ℕ → Option Bytes

/-- `field_name`. -/
def fieldName : Bytes := ascii "a"

/-- `type_to_table_name`. -/
def typeToTableName (type : Bytes) : Bytes :=
  ((ascii "test.type_" ++ type).takeWhile (· ≠ 40)).takeWhile (· ≠ 32)

/-- The statements of `insert_data`. -/
def insertData (table type : Bytes) (values : List Bytes) : List Bytes :=
  [ascii "CREATE TABLE " ++ table ++ ascii "(" ++ fieldName ++ ascii " " ++ type ++ ascii ")"] ++
    values.map (fun value =>
      ascii "INSERT INTO " ++ table ++ ascii " VALUES (" ++ value ++ ascii ")") ++
    [ascii "DROP TABLE " ++ table]

/-- The statements of the first half of `run_test`; their results are not looked at. -/
def insertedStatements (table : List TestSet) : List Bytes :=
  table.flatMap (fun set =>
    set.types.flatMap fun type => insertData (typeToTableName type) type set.values) ++
    [ascii "FLUSH LOGS"]

section

variable (jsonLoads : Bytes → Except JsonError JsonDocument)
  (realText : JsonDocument → ℕ → Bytes)

/-- One round of the loop over the values. -/
def testValue (outcomes : TypeOutcomes) (rval : Bool) (value : Bytes × ℕ) : Bool :=
  match outcomes.read value.2 with
  | some row =>
    if testInput value.1 ≠ testOutput jsonLoads realText row fieldName then false else rval
  -- "Failed to read data"
  | none => rval

/-- One round of the loop over the types. -/
def testType (values : List Bytes) (outcomes : TypeOutcomes) (rval : Bool) : Bool :=
  if outcomes.created && outcomes.requested then
    values.zipIdx.foldl (testValue jsonLoads realText outcomes) rval
  else false

/-- The result of `run_test`, where `outcomes x i` is what becomes of the connection for type `i`
    of entry `x`. -/
def runTest (table : List TestSet) (outcomes : ℕ → ℕ → TypeOutcomes) : Bool :=
  table.zipIdx.foldl (fun rval set =>
    set.1.types.zipIdx.foldl (fun rval type =>
      testType jsonLoads realText set.1.values (outcomes set.2 type.2) rval) rval) true

end

/-! ### The flag -/

/-- A loop whose rounds can only clear a flag. -/
theorem foldl_flag {α : Type*} {round : Bool → α → Bool} {pass : α → Bool}
    (h : ∀ flag a, round flag a = (flag && pass a)) (as : List α) (flag : Bool) :
    as.foldl round flag = (flag && as.all pass) := by
  induction as generalizing flag with
  | nil => rw [List.foldl_nil, List.all_nil, Bool.and_true]
  | cons a as ih => rw [List.foldl_cons, ih, h, List.all_cons, Bool.and_assoc]

/-- What holds of a list with indices holds of each element with its index. -/
theorem all_zipIdx_iff {α : Type*} {as : List α} {pass : α × ℕ → Bool} :
    as.zipIdx.all pass = true ↔ ∀ i a, as[i]? = some a → pass (a, i) = true := by
  rw [List.all_eq_true]
  constructor
  · intro h i a ha
    exact h (a, i) (List.mem_zipIdx_iff_getElem?.mpr ha)
  · rintro h ⟨a, i⟩ hmem
    exact h i a (List.mem_zipIdx_iff_getElem?.mp hmem)

section

variable {jsonLoads : Bytes → Except JsonError JsonDocument}
  {realText : JsonDocument → ℕ → Bytes}

/-- A row has been read, and its value is not the one inserted. -/
def Mismatch (jsonLoads : Bytes → Except JsonError JsonDocument)
    (realText : JsonDocument → ℕ → Bytes) (value : Bytes) (read : Option Bytes) : Prop :=
  ∃ row, read = some row ∧ testInput value ≠ testOutput jsonLoads realText row fieldName

instance (value : Bytes) (read : Option Bytes) :
    Decidable (Mismatch jsonLoads realText value read) :=
  decidable_of_iff (∃ row ∈ read, testInput value ≠ testOutput jsonLoads realText row fieldName)
    Iff.rfl

/-- Only a mismatch clears the flag. -/
theorem testValue_eq (outcomes : TypeOutcomes) (rval : Bool) (value : Bytes × ℕ) :
    testValue jsonLoads realText outcomes rval value =
      (rval && !decide (Mismatch jsonLoads realText value.1 (outcomes.read value.2))) := by
  unfold testValue
  cases hread : outcomes.read value.2 with
  | none =>
    have hno : ¬ Mismatch jsonLoads realText value.1 none := nofun
    simp [hno]
  | some row =>
    have hiff : Mismatch jsonLoads realText value.1 (some row) ↔
        testInput value.1 ≠ testOutput jsonLoads realText row fieldName := by
      simp [Mismatch]
    by_cases hsame : testInput value.1 = testOutput jsonLoads realText row fieldName
    · simp [hiff, hsame]
    · simp [hiff, hsame]

/-- A type passes: the connection and the request are made, and no row has another value. -/
structure TypePasses (jsonLoads : Bytes → Except JsonError JsonDocument)
    (realText : JsonDocument → ℕ → Bytes) (values : List Bytes) (outcomes : TypeOutcomes) :
    Prop where
  created : outcomes.created = true
  requested : outcomes.requested = true
  matching : ∀ j value, values[j]? = some value →
    ¬ Mismatch jsonLoads realText value (outcomes.read j)

/-- Whether it does. -/
def typePasses (jsonLoads : Bytes → Except JsonError JsonDocument)
    (realText : JsonDocument → ℕ → Bytes) (values : List Bytes) (outcomes : TypeOutcomes) : Bool :=
  (outcomes.created && outcomes.requested) && values.zipIdx.all fun value =>
    !decide (Mismatch jsonLoads realText value.1 (outcomes.read value.2))

theorem typePasses_iff {values : List Bytes} {outcomes : TypeOutcomes} :
    typePasses jsonLoads realText values outcomes = true ↔
      TypePasses jsonLoads realText values outcomes := by
  rw [typePasses, Bool.and_eq_true, Bool.and_eq_true, all_zipIdx_iff]
  constructor
  · rintro ⟨⟨hcreated, hrequested⟩, hvalues⟩
    exact ⟨hcreated, hrequested, fun j value hj => by simpa using hvalues j value hj⟩
  · rintro ⟨hcreated, hrequested, hvalues⟩
    exact ⟨⟨hcreated, hrequested⟩, fun j value hj => by simpa using hvalues j value hj⟩

/-- **One type.** The flag is cleared when the type does not pass. -/
theorem testType_eq (values : List Bytes) (outcomes : TypeOutcomes) (rval : Bool) :
    testType jsonLoads realText values outcomes rval =
      (rval && typePasses jsonLoads realText values outcomes) := by
  unfold testType typePasses
  split
  · rename_i hmade
    rw [foldl_flag (testValue_eq outcomes), hmade, Bool.true_and]
  · rename_i hfails
    rw [Bool.eq_false_of_not_eq_true hfails, Bool.false_and, Bool.and_false]

/-- `P` holds of the values and the outcomes of every type. -/
def EveryType (P : List Bytes → TypeOutcomes → Prop) (table : List TestSet)
    (outcomes : ℕ → ℕ → TypeOutcomes) : Prop :=
  ∀ x set, table[x]? = some set → ∀ i type, set.types[i]? = some type →
    P set.values (outcomes x i)

/-- **The flag.** The test passes when every type does. -/
theorem runTest_eq_true_iff {table : List TestSet} {outcomes : ℕ → ℕ → TypeOutcomes} :
    runTest jsonLoads realText table outcomes = true ↔
      EveryType (TypePasses jsonLoads realText) table outcomes := by
  unfold runTest
  have hset : ∀ (rval : Bool) (set : TestSet × ℕ),
      set.1.types.zipIdx.foldl (fun rval type =>
          testType jsonLoads realText set.1.values (outcomes set.2 type.2) rval) rval =
        (rval && set.1.types.zipIdx.all fun type =>
          typePasses jsonLoads realText set.1.values (outcomes set.2 type.2)) := by
    intro rval set
    exact foldl_flag (fun flag type => testType_eq set.1.values (outcomes set.2 type.2) flag) _ rval
  rw [foldl_flag hset, Bool.true_and, all_zipIdx_iff]
  unfold EveryType
  simp only [all_zipIdx_iff, typePasses_iff]

/-! ### The statements -/

/-- **Insertion.** Every value that is compared has been sent to the server, in the table that is
    requested for its type. -/
theorem inserted_of_mem {table : List TestSet} {set : TestSet} (hset : set ∈ table) {type : Bytes}
    (htype : type ∈ set.types) {value : Bytes} (hvalue : value ∈ set.values) :
    ascii "INSERT INTO " ++ typeToTableName type ++ ascii " VALUES (" ++ value ++ ascii ")" ∈
      insertedStatements table := by
  apply List.mem_append_left
  refine List.mem_flatMap.mpr ⟨set, hset, List.mem_flatMap.mpr ⟨type, htype, ?_⟩⟩
  apply List.mem_append_left
  apply List.mem_append_right
  exact List.mem_map.mpr ⟨value, hvalue, rfl⟩

/-! ### The verdict -/

/-- All values of a type have been read, and are equal to those inserted. -/
structure AllRead (jsonLoads : Bytes → Except JsonError JsonDocument)
    (realText : JsonDocument → ℕ → Bytes) (values : List Bytes) (outcomes : TypeOutcomes) :
    Prop where
  created : outcomes.created = true
  requested : outcomes.requested = true
  equal : ∀ j value, values[j]? = some value → ∃ row, outcomes.read j = some row ∧
    testInput value = testOutput jsonLoads realText row fieldName

/-- No row of a type fails to be read. -/
def NoReadFails (values : List Bytes) (outcomes : TypeOutcomes) : Prop :=
  ∀ j < values.length, outcomes.read j ≠ none

/-- All values are read and equal when the type passes and no read fails. -/
theorem allRead_iff {values : List Bytes} {outcomes : TypeOutcomes} :
    AllRead jsonLoads realText values outcomes ↔
      TypePasses jsonLoads realText values outcomes ∧ NoReadFails values outcomes := by
  constructor
  · intro h
    refine ⟨⟨h.created, h.requested, fun j value hj => ?_⟩, fun j hj => ?_⟩
    · rintro ⟨row, hrow, hne⟩
      obtain ⟨row', hrow', heq⟩ := h.equal j value hj
      rw [hrow] at hrow'
      cases hrow'
      exact hne heq
    · obtain ⟨row, hrow, -⟩ := h.equal j _ (List.getElem?_eq_getElem hj)
      rw [hrow]
      exact Option.some_ne_none row
  · rintro ⟨hpasses, hreads⟩
    refine ⟨hpasses.created, hpasses.requested, fun j value hj => ?_⟩
    have hlt : j < values.length := (List.getElem?_eq_some_iff.mp hj).1
    obtain ⟨row, hrow⟩ := Option.ne_none_iff_exists'.mp (hreads j hlt)
    refine ⟨row, hrow, ?_⟩
    by_contra hne
    exact hpasses.matching j value hj ⟨row, hrow, hne⟩

/-- The test passes only if all values of all types have been read and are equal. -/
def VerdictRight (jsonLoads : Bytes → Except JsonError JsonDocument)
    (realText : JsonDocument → ℕ → Bytes) (table : List TestSet)
    (outcomes : ℕ → ℕ → TypeOutcomes) : Prop :=
  runTest jsonLoads realText table outcomes = true →
    EveryType (AllRead jsonLoads realText) table outcomes

/-- **The verdict.** It is right exactly when no read fails, or something else does: a connection,
    a request or a comparison. -/
theorem cdc_datatypes_verdict_iff (jsonLoads : Bytes → Except JsonError JsonDocument)
    (realText : JsonDocument → ℕ → Bytes) (table : List TestSet)
    (outcomes : ℕ → ℕ → TypeOutcomes) :
    VerdictRight jsonLoads realText table outcomes ↔
      EveryType NoReadFails table outcomes ∨
        ¬ EveryType (TypePasses jsonLoads realText) table outcomes := by
  have hsplit : EveryType (AllRead jsonLoads realText) table outcomes ↔
      EveryType (TypePasses jsonLoads realText) table outcomes ∧
        EveryType NoReadFails table outcomes := by
    unfold EveryType
    simp only [allRead_iff]
    constructor
    · intro h
      exact ⟨fun x set hx i type hi => (h x set hx i type hi).1,
        fun x set hx i type hi => (h x set hx i type hi).2⟩
    · rintro ⟨hpasses, hreads⟩ x set hx i type hi
      exact ⟨hpasses x set hx i type hi, hreads x set hx i type hi⟩
  rw [VerdictRight, runTest_eq_true_iff, hsplit]
  tauto

/-- `test_set`. -/
def testSet : List TestSet :=
  [⟨[ascii "TINYINT", ascii "SMALLINT", ascii "MEDIUMINT", ascii "INT", ascii "BIGINT"],
      [ascii "0", ascii "1", ascii "-1", ascii "20", ascii "-20"]⟩,
    ⟨[ascii "FLOAT", ascii "DOUBLE", ascii "DECIMAL(10, 2)"],
      [ascii "0", ascii "1.5", ascii "-1.5", ascii "20.5", ascii "-20.5"]⟩,
    ⟨[ascii "CHAR(50)", ascii "VARCHAR(50)", ascii "TINYTEXT", ascii "TEXT", ascii "MEDIUMTEXT",
        ascii "LONGTEXT"],
      [ascii "\"Hello world!\"", ascii "\"The quick brown fox jumps over the lazy dog\""]⟩,
    ⟨[ascii "BINARY(50)", ascii "VARBINARY(50)", ascii "TINYBLOB", ascii "BLOB",
        ascii "MEDIUMBLOB", ascii "LONGBLOB"],
      [ascii "\"Hello world!\"", ascii "\"The quick brown fox jumps over the lazy dog\"",
        ascii "NULL"]⟩]

/-- All connections and requests are made, and no row can be read. -/
def noRows : ℕ → ℕ → TypeOutcomes := fun _ _ => ⟨true, true, fun _ => none⟩

/-- The test passes. -/
theorem no_rows_passes :
    ¬ VerdictRight (fun _ => .error ⟨1, ascii "'[' or '\x7b' expected"⟩) (fun _ _ => []) testSet
      noRows := by
  rw [cdc_datatypes_verdict_iff]
  rintro (hreads | hfails)
  · exact hreads 0 _ rfl 0 _ rfl 0 (by decide) rfl
  · refine hfails fun x set hset i type htype => ⟨rfl, rfl, fun j value hvalue => ?_⟩
    rintro ⟨row, hrow, -⟩
    cases hrow

end

end MaxScaleSystemTest.Cdc.Datatypes
