import MaxScaleSystemTest.Lib.Decimal
import MaxScaleSystemTest.Maxinfo.Jansson

namespace MaxScaleSystemTest.Maxinfo

open CString Json RefCount

/-!
# Reading a row from a JSON line

`get_x_fl_from_json` reads the members `x1` and `fl` of an object.  It stores `x1` before it
looks at `fl`, has no `return` behind the last statement, and gives back the references to the
members, which it has borrowed, before the one to the root, which it keeps on every other way
out.

* `getXFlFromJson_ok` — what it does on a line that is JSON;
* `get_x_fl_record_iff` — when its result and what it stores are right;
* `get_x_fl_balanced_iff` — when it gives back what it owns.
-/

/-- What a call leaves: the value returned, `*x1` and `*fl`, what has been printed, and the
    references given to `json_decref`, in order. -/
structure Extraction where
  ret : Int32
  x1 : Int64
  fl : Int64
  stdout : Bytes
  stderr : Bytes
  decrefs : List JsonRef

section Code

variable (jsonLoads : Bytes → Except JsonError JsonDocument)

/-- `get_x_fl_from_json`, on what `*x1` and `*fl` hold before; `none` for the use of a value
    that is not there.  A function that ends without a `return` gives its caller whatever is
    found, here `garbage`. -/
def getXFlFromJson (garbage : Int32) (line : Bytes) (x1 fl : Int64) : Option Extraction :=
  match jsonLoads line with
  | .error e =>
    some ⟨1, x1, fl, [],
      ascii "error: on line " ++ Decimal.ofInt e.line ++ ascii ": " ++ e.text ++ [nl], []⟩
  | .ok doc =>
    match jsonObjectGet doc.heap (.cell doc.root) (ascii "x1") with
    | none => some ⟨1, x1, fl, [], [], []⟩
    | some xJson => do
      let type ← jsonTypeof doc.heap xJson
      if type ≠ JSON_INTEGER then
        let message := ascii "x1 is not int, type is " ++ Decimal.ofNat type ++ [nl]
        return ⟨1, x1, fl, message, [], []⟩
      let x1 ← jsonIntegerValue doc.heap xJson
      match jsonObjectGet doc.heap (.cell doc.root) (ascii "fl") with
      | none => return ⟨1, x1, fl, [], [], []⟩
      | some flJson => do
        let type ← jsonTypeof doc.heap flJson
        if type ≠ JSON_INTEGER then
          return ⟨1, x1, fl, ascii "fl is not int\n", [], []⟩
        let fl ← jsonIntegerValue doc.heap flJson
        return ⟨garbage, x1, fl, [], [], [xJson, flJson, .cell doc.root]⟩

end Code

/-- The two integers of a row, where the document has them. -/
def JsonDocument.row (doc : JsonDocument) : Option (Int64 × Int64) := do
  let x ← doc.integer? (ascii "x1")
  let f ← doc.integer? (ascii "fl")
  return (x, f)

variable {jsonLoads : Bytes → Except JsonError JsonDocument}

/-- A line that is no JSON leaves everything as it was. -/
theorem getXFlFromJson_error {line : Bytes} {e : JsonError} (h : jsonLoads line = .error e)
    (garbage : Int32) (x1 fl : Int64) :
    ∃ o, getXFlFromJson jsonLoads garbage line x1 fl = some o ∧
      o.ret = 1 ∧ o.x1 = x1 ∧ o.fl = fl ∧ o.decrefs = [] := by
  unfold getXFlFromJson
  rw [h]
  exact ⟨_, rfl, rfl, rfl, rfl, rfl⟩

/-- **On JSON.** `*x1` is stored whenever there is one; the other results depend on both
    members. -/
theorem getXFlFromJson_ok {line : Bytes} {doc : JsonDocument} (h : jsonLoads line = .ok doc)
    (garbage : Int32) (x1 fl : Int64) :
    ∃ o, getXFlFromJson jsonLoads garbage line x1 fl = some o ∧
      o.x1 = (doc.integer? (ascii "x1")).getD x1 ∧
      match doc.row with
      | none => o.ret = 1 ∧ o.fl = fl ∧ o.decrefs = []
      | some (_, f) => o.ret = garbage ∧ o.fl = f ∧
          ∃ a b, o.decrefs = [.cell a, .cell b, .cell doc.root] := by
  unfold getXFlFromJson JsonDocument.row
  rw [h]
  dsimp only
  obtain ⟨hx, hxint⟩ | ⟨ref, type, hx, htype, hne, hxint⟩ | ⟨a, x, hx, htype, hvalue, hxint⟩ :=
    doc.member_cases (ascii "x1")
  · rw [hx, hxint]
    exact ⟨_, rfl, rfl, rfl, rfl, rfl⟩
  · rw [hx, hxint]
    simp [htype, hne]
  · rw [hx, hxint]
    -- `x1` is there and is stored, whatever `fl` is
    obtain ⟨hf, hfint⟩ | ⟨ref, type, hf, hftype, hne, hfint⟩ | ⟨b, f, hf, hftype, hfvalue, hfint⟩ :=
      doc.member_cases (ascii "fl")
    · rw [hf, hfint]
      simp [htype, hvalue]
    · rw [hf, hfint]
      simp [htype, hvalue, hftype, hne]
    · rw [hf, hfint]
      simp [htype, hvalue, hftype, hfvalue]

/-- The outcome of a call on JSON. -/
theorem outcome_of_ok {line : Bytes} {doc : JsonDocument} (h : jsonLoads line = .ok doc)
    {garbage : Int32} {x1 fl : Int64} {o : Extraction}
    (hrun : getXFlFromJson jsonLoads garbage line x1 fl = some o) :
    o.x1 = (doc.integer? (ascii "x1")).getD x1 ∧
      match doc.row with
      | none => o.ret = 1 ∧ o.fl = fl ∧ o.decrefs = []
      | some (_, f) => o.ret = garbage ∧ o.fl = f ∧
          ∃ a b, o.decrefs = [.cell a, .cell b, .cell doc.root] := by
  obtain ⟨o', hrun', hout⟩ := getXFlFromJson_ok h garbage x1 fl
  rw [hrun, Option.some.injEq] at hrun'
  subst hrun'
  exact hout

/-! ### The result and the stored values -/

/-- The two integers of a line, where it is a row. -/
def lineRow (jsonLoads : Bytes → Except JsonError JsonDocument) (line : Bytes) :
    Option (Int64 × Int64) :=
  match jsonLoads line with
  | .error _ => none
  | .ok doc => doc.row

/-- The integer `x1` of a line, whatever `fl` is. -/
def lineX1 (jsonLoads : Bytes → Except JsonError JsonDocument) (line : Bytes) : Option Int64 :=
  match jsonLoads line with
  | .error _ => none
  | .ok doc => doc.integer? (ascii "x1")

/-- A row has an integer `x1`. -/
theorem lineX1_of_lineRow {line : Bytes} {x f : Int64} (h : lineRow jsonLoads line = some (x, f)) :
    lineX1 jsonLoads line = some x := by
  unfold lineRow at h
  unfold lineX1
  cases hload : jsonLoads line with
  | error e =>
    rw [hload] at h
    cases h
  | ok doc =>
    rw [hload] at h
    obtain ⟨x', hx, h⟩ := Option.bind_eq_some_iff.mp h
    obtain ⟨f', -, h⟩ := Option.bind_eq_some_iff.mp h
    cases h
    exact hx

/-- What a call leaves in `*x1` and `*fl`. -/
theorem getXFlFromJson_leaves (jsonLoads : Bytes → Except JsonError JsonDocument)
    (garbage : Int32) (line : Bytes) (x1 fl : Int64) :
    ∃ o, getXFlFromJson jsonLoads garbage line x1 fl = some o ∧
      o.x1 = (lineX1 jsonLoads line).getD x1 ∧
      o.fl = ((lineRow jsonLoads line).map Prod.snd).getD fl := by
  unfold lineX1 lineRow
  cases hload : jsonLoads line with
  | error e =>
    obtain ⟨o, hrun, -, hx, hfl, -⟩ := getXFlFromJson_error hload garbage x1 fl
    exact ⟨o, hrun, hx, hfl⟩
  | ok doc =>
    obtain ⟨o, hrun, hx, hout⟩ := getXFlFromJson_ok hload garbage x1 fl
    refine ⟨o, hrun, hx, ?_⟩
    cases hrow : doc.row with
    | none =>
      simp only [hrow] at hout ⊢
      exact hout.2.1
    | some row =>
      simp only [hrow] at hout ⊢
      exact hout.2.1

/-- Whatever a missing `return` gives: 0 and the two integers for a row, and for any other
    line something else than 0 and `*x1` and `*fl` as they were. -/
def RecordRight (jsonLoads : Bytes → Except JsonError JsonDocument) (line : Bytes)
    (x1 fl : Int64) : Prop :=
  ∀ garbage, ∃ o, getXFlFromJson jsonLoads garbage line x1 fl = some o ∧
    match lineRow jsonLoads line with
    | some (x, f) => o.ret = 0 ∧ o.x1 = x ∧ o.fl = f
    | none => o.ret ≠ 0 ∧ o.x1 = x1 ∧ o.fl = fl

/-- **When the result is right.** The line is no row, and if it has an integer `x1` all the
    same, `*x1` holds this already. -/
theorem get_x_fl_record_iff (line : Bytes) (x1 fl : Int64) :
    RecordRight jsonLoads line x1 fl ↔
      lineRow jsonLoads line = none ∧
        ∀ doc x, jsonLoads line = .ok doc → doc.integer? (ascii "x1") = some x → x = x1 := by
  unfold RecordRight
  cases hload : jsonLoads line with
  | error e =>
    have hrow : lineRow jsonLoads line = none := by simp [lineRow, hload]
    rw [hrow]
    refine iff_of_true (fun garbage => ?_) ⟨rfl, fun doc x hdoc => nomatch hdoc⟩
    obtain ⟨o, hrun, hret, hx, hfl, -⟩ := getXFlFromJson_error hload garbage x1 fl
    exact ⟨o, hrun, by rw [hret]; decide, hx, hfl⟩
  | ok doc =>
    have hrow : lineRow jsonLoads line = doc.row := by simp [lineRow, hload]
    rw [hrow]
    cases hdoc : doc.row with
    | none =>
      constructor
      · intro hright
        refine ⟨rfl, ?_⟩
        rintro doc' x ⟨⟩ hx
        obtain ⟨o, hrun, -, hsame, -⟩ := hright 0
        obtain ⟨hstored, -⟩ := outcome_of_ok hload hrun
        rw [hsame, hx, Option.getD_some] at hstored
        exact hstored.symm
      · rintro ⟨-, hsame⟩ garbage
        have hstep := getXFlFromJson_ok hload garbage x1 fl
        simp only [hdoc] at hstep
        obtain ⟨o, hrun, hstored, hret, hfl, -⟩ := hstep
        refine ⟨o, hrun, by rw [hret]; decide, ?_, hfl⟩
        rw [hstored]
        cases hx : doc.integer? (ascii "x1") with
        | none => rfl
        | some x => exact hsame doc x rfl hx
    | some row =>
      refine iff_of_false (fun hright => ?_) fun hnone => nomatch hnone.1
      -- what is returned is whatever is found
      obtain ⟨o, hrun, hret, -⟩ := hright 1
      obtain ⟨-, hout⟩ := outcome_of_ok hload hrun
      simp only [hdoc] at hout
      rw [hout.1] at hret
      exact absurd hret (by decide)

/-! ### The references -/

/-- The references are in order: the root is given back once, nothing that is borrowed is, no
    count goes below its owners, and nothing is left. -/
structure ReferencesRight (doc : JsonDocument) (decrefs : List JsonRef) : Prop where
  rootOnce : decrefs.count (.cell doc.root) = 1
  notBorrowed : ∀ ref ∈ decrefs, ref = .cell doc.root
  balanced : Balanced JsonValue.children doc.heap [doc.root] (decrefs.filterMap JsonRef.addr?)

/-- Whatever `*x1` and `*fl` hold, a call on the line has its references in order; without a
    document there are none. -/
def BalancedOn (jsonLoads : Bytes → Except JsonError JsonDocument) (line : Bytes) : Prop :=
  ∀ garbage x1 fl, ∃ o, getXFlFromJson jsonLoads garbage line x1 fl = some o ∧
    match jsonLoads line with
    | .error _ => o.decrefs = []
    | .ok doc => ReferencesRight doc o.decrefs

/-- Giving back the reference to the root, and nothing else, is what the references ask for. -/
theorem referencesRight_iff (doc : JsonDocument) (decrefs : List JsonRef) :
    ReferencesRight doc decrefs ↔ decrefs = [.cell doc.root] := by
  constructor
  · rintro ⟨honce, hborrowed, -⟩
    have hall := List.eq_replicate_of_mem hborrowed
    rw [hall, List.count_replicate_self] at honce
    rw [hall, honce]
    rfl
  · rintro rfl
    refine ⟨by simp, fun ref href => List.mem_singleton.mp href, ?_⟩
    exact (balanced_iff doc.sound doc.acyclic _).mpr rfl

/-- **When the references are in order.** Only on lines that are no JSON: otherwise the
    document is kept, or, for a row, the two members are given back as well. -/
theorem get_x_fl_balanced_iff (line : Bytes) :
    BalancedOn jsonLoads line ↔ ∀ doc, jsonLoads line ≠ .ok doc := by
  unfold BalancedOn
  cases hload : jsonLoads line with
  | error e =>
    refine iff_of_true (fun garbage x1 fl => ?_) fun doc => nofun
    obtain ⟨o, hrun, -, -, -, hrefs⟩ := getXFlFromJson_error hload garbage x1 fl
    exact ⟨o, hrun, hrefs⟩
  | ok doc =>
    refine iff_of_false (fun hbalanced => ?_) fun hno => hno doc rfl
    obtain ⟨o, hrun, hright⟩ := hbalanced 0 0 0
    obtain ⟨-, hout⟩ := outcome_of_ok hload hrun
    have hrefs : o.decrefs = [.cell doc.root] := (referencesRight_iff doc _).mp hright
    cases hdoc : doc.row with
    | none =>
      simp only [hdoc, hrefs] at hout
      exact nomatch hout.2.2
    | some row =>
      simp only [hdoc, hrefs] at hout
      obtain ⟨-, -, a, b, heq⟩ := hout
      cases heq

/-! ### A row -/

/-- The heap of a row. -/
def recordHeap (x f : Int64) : Heap JsonValue :=
  [⟨0, 1, .object [(ascii "x1", .cell 1), (ascii "fl", .cell 2)]⟩, ⟨1, 1, .integer x⟩,
    ⟨2, 1, .integer f⟩]

theorem recordHeap_sound (x f : Int64) : Sound JsonValue.children (recordHeap x f) [0] where
  nodup := by
    show [0, 1, 2].Nodup
    decide
  counts := by
    intro c hc
    simp only [recordHeap, List.mem_cons, List.not_mem_nil, or_false] at hc
    rcases hc with rfl | rfl | rfl <;> rfl
  owned := by
    intro c hc
    simp only [recordHeap, List.mem_cons, List.not_mem_nil, or_false] at hc
    rcases hc with rfl | rfl | rfl <;> exact Nat.one_pos
  live := by
    intro a ha
    have hmem : a ∈ [1, 2, 0] := List.count_pos_iff.mp (by
      rw [show [1, 2, 0] = [1, 2] ++ [0] from rfl, List.count_append]
      exact ha)
    simp only [List.mem_cons, List.not_mem_nil, or_false] at hmem
    rcases hmem with rfl | rfl | rfl
    · exact ⟨⟨1, 1, .integer x⟩, by simp [recordHeap], rfl⟩
    · exact ⟨⟨2, 1, .integer f⟩, by simp [recordHeap], rfl⟩
    · exact ⟨⟨0, 1, .object [(ascii "x1", .cell 1), (ascii "fl", .cell 2)]⟩, by simp [recordHeap],
        rfl⟩

theorem recordHeap_acyclic (x f : Int64) : Acyclic JsonValue.children (recordHeap x f) := by
  intro c hc
  simp only [recordHeap, List.mem_cons, List.not_mem_nil, or_false] at hc
  rcases hc with rfl | rfl | rfl
  · show ∀ b ∈ [1, 2], 0 < b
    decide
  · exact nofun
  · exact nofun

/-- A row as a document. -/
def recordDocument (x f : Int64) : JsonDocument where
  heap := recordHeap x f
  root := 0
  sound := recordHeap_sound x f
  acyclic := recordHeap_acyclic x f

theorem recordDocument_row (x f : Int64) : (recordDocument x f).row = some (x, f) := by
  have hkeys : ascii "x1" ≠ ascii "fl" := by decide
  simp [JsonDocument.row, JsonDocument.integer?, recordDocument, recordHeap, jsonObjectGet,
    Node.get, JsonRef.addr?, find, hkeys]

/-- The heap of the row `x1` 1, `fl` 2. -/
def rowHeap : Heap JsonValue :=
  [⟨0, 1, .object [(ascii "x1", .cell 1), (ascii "fl", .cell 2)]⟩, ⟨1, 1, .integer 1⟩,
    ⟨2, 1, .integer 2⟩]

theorem rowHeap_sound : Sound JsonValue.children rowHeap [0] := recordHeap_sound 1 2

theorem rowHeap_acyclic : Acyclic JsonValue.children rowHeap := recordHeap_acyclic 1 2

/-- That row as a document. -/
def rowDocument : JsonDocument where
  heap := rowHeap
  root := 0
  sound := rowHeap_sound
  acyclic := rowHeap_acyclic

/-- The row as a line. -/
def rowLine : Bytes := ascii "\x7b\"x1\": 1, \"fl\": 2\x7d"

/-- `json_loads` on that line. -/
def rowLoads (line : Bytes) : Except JsonError JsonDocument :=
  if line = rowLine then .ok rowDocument else .error ⟨1, ascii "invalid token"⟩

theorem rowLoads_rowLine : rowLoads rowLine = .ok rowDocument := if_pos rfl

theorem rowDocument_row : rowDocument.row = some (1, 2) := recordDocument_row 1 2

/-- For a row the value returned is whatever is found. -/
theorem row_result_wrong : ¬ RecordRight rowLoads rowLine 0 0 := by
  intro hright
  obtain ⟨o, hrun, hrow⟩ := hright 1
  obtain ⟨-, hout⟩ := outcome_of_ok rowLoads_rowLine hrun
  have hline : lineRow rowLoads rowLine = some (1, 2) := by
    rw [lineRow, rowLoads_rowLine]
    exact rowDocument_row
  rw [hline] at hrow
  rw [rowDocument_row] at hout
  have hone : (1 : Int32) = 0 := hout.1.symm.trans hrow.1
  exact absurd hone (by decide)

/-- For a row the references to the members are given back. -/
theorem row_overreleased : ¬ BalancedOn rowLoads rowLine := by
  intro hbalanced
  obtain ⟨o, hrun, hright⟩ := hbalanced 0 0 0
  obtain ⟨-, hout⟩ := outcome_of_ok rowLoads_rowLine hrun
  rw [rowLoads_rowLine] at hright
  rw [rowDocument_row] at hout
  obtain ⟨-, -, a, b, hrefs⟩ := hout
  have honly := (referencesRight_iff rowDocument _).mp hright
  rw [hrefs] at honly
  cases honly

end MaxScaleSystemTest.Maxinfo
