import MaxScaleSystemTest.Lib.CInt
import MaxScaleSystemTest.Lib.CString

namespace MaxScaleSystemTest

open CString CInt

/-!
# The verdict of a test run

`TestConnections::add_result` collects the results of a test in `global_result`, which
`main` returns; of what `main` returns the operating system keeps the low byte.

* `addResult` — one call, with what it prints.
* `testRun` / `exitStatus` — a whole run and the status its parent process sees.
* `verdict_iff_sum` — the status tells "all results were zero" apart from the rest exactly
  when the results of a failing run do not add up to a multiple of 256.
-/

/-- The part of a `TestConnections` object that `add_result` reads and writes, and what it
    has printed. -/
structure TestConnections where
  globalResult : Int32
  stdout : Bytes

/-- The arguments of one `add_result` call: the result, the format and the text `vprintf`
    makes of it; `elapsedTime` is the `%04f` text of the seconds since the start. -/
structure ResultCall where
  result : Int32
  format : Bytes
  message : Bytes
  elapsedTime : Bytes

/-- `TestConnections::add_result`. -/
def addResult (t : TestConnections) (c : ResultCall) : TestConnections :=
  if c.result ≠ 0 then
    { globalResult := t.globalResult + c.result
      stdout := t.stdout ++ (c.elapsedTime ++ ascii ": TEST_FAILED! " ++ c.message ++
        if c.format.getLast? ≠ some nl then [nl] else []) }
  else t

/-- `add_result` with a format and the text that is made of it, at a time that depends on what
    has been printed before. -/
def report (elapsedTime : Bytes → Bytes) (t : TestConnections) (result : Int32)
    (format message : Bytes) : TestConnections :=
  addResult t ⟨result, format, message, elapsedTime t.stdout⟩

/-- A test run: a fresh object and the calls made on it. -/
def testRun (calls : List ResultCall) : TestConnections :=
  calls.foldl addResult { globalResult := 0, stdout := [] }

/-- The exit status of a `main` that returns `global_result`. -/
def exitStatus (t : TestConnections) : UInt8 := lowByte t.globalResult

/-! ### The running sum -/

theorem addResult_globalResult (t : TestConnections) (c : ResultCall) :
    (addResult t c).globalResult = t.globalResult + c.result := by
  unfold addResult
  split
  · rfl
  · rename_i hzero
    rw [not_not.mp hzero, Int32.add_zero]

theorem report_globalResult (elapsedTime : Bytes → Bytes) (t : TestConnections) (result : Int32)
    (format message : Bytes) :
    (report elapsedTime t result format message).globalResult = t.globalResult + result :=
  addResult_globalResult t _

/-- `global_result` is the wrapped sum of all results, failed or not. -/
theorem foldl_addResult_globalResult (calls : List ResultCall) (t : TestConnections) :
    (calls.foldl addResult t).globalResult
      = (calls.map ResultCall.result).foldl (· + ·) t.globalResult := by
  induction calls generalizing t with
  | nil => rfl
  | cons c calls ih => rw [List.foldl_cons, ih, addResult_globalResult, List.map_cons, List.foldl_cons]

/-- The exit status is zero exactly when the results add up to a multiple of 256. -/
theorem exitStatus_eq_zero_iff (calls : List ResultCall) :
    exitStatus (testRun calls) = 0 ↔ (256 : ℤ) ∣ (calls.map (·.result.toInt)).sum := by
  have hsum := foldl_add_modEq 0 (calls.map ResultCall.result)
  have hglobal : (testRun calls).globalResult = (calls.map ResultCall.result).foldl (· + ·) 0 :=
    foldl_addResult_globalResult calls _
  rw [exitStatus, lowByte_eq_zero_iff, hglobal]
  rw [Int32.toInt_zero, zero_add, List.map_map] at hsum
  exact hsum.dvd_iff

/-! ### What the status says about the results -/

/-- The status says whether the run passed: zero if and only if every result was zero. -/
def VerdictCorrect (calls : List ResultCall) : Prop :=
  exitStatus (testRun calls) = 0 ↔ ∀ c ∈ calls, c.result = 0

/-- A run without failures has the sum zero. -/
theorem sum_eq_zero_of_all_zero (calls : List ResultCall) (h : ∀ c ∈ calls, c.result = 0) :
    (calls.map (·.result.toInt)).sum = 0 := by
  apply List.sum_eq_zero
  intro n hn
  obtain ⟨c, hc, rfl⟩ := List.mem_map.mp hn
  show c.result.toInt = 0
  rw [h c hc, Int32.toInt_zero]

/-- **The verdict is right exactly when failures do not cancel.** Either every result of the
    run was zero, or the results do not add up to a multiple of 256. -/
theorem verdict_iff_sum (calls : List ResultCall) :
    VerdictCorrect calls ↔
      (∀ c ∈ calls, c.result = 0) ∨ ¬ (256 : ℤ) ∣ (calls.map (·.result.toInt)).sum := by
  have hpass : (∀ c ∈ calls, c.result = 0) → (256 : ℤ) ∣ (calls.map (·.result.toInt)).sum := by
    intro h
    rw [sum_eq_zero_of_all_zero calls h]
    exact dvd_zero 256
  rw [VerdictCorrect, exitStatus_eq_zero_iff]
  constructor
  · intro h
    by_cases hsum : (256 : ℤ) ∣ (calls.map (·.result.toInt)).sum
    · exact .inl (h.mp hsum)
    · exact .inr hsum
  · rintro (hzero | hsum)
    · exact ⟨fun _ => hzero, fun _ => hpass hzero⟩
    · exact ⟨fun h => absurd h hsum, fun hzero => absurd (hpass hzero) hsum⟩

/-- Two failed group checks whose `strcmp` results are `1` and `-1`. -/
def cancellingCalls : List ResultCall :=
  [{ result := 1, format := ascii "Server '%s', expected group '%s', not '%s'",
     message := ascii "Server 'server1', expected group '1', not '0'",
     elapsedTime := ascii "20.100000" },
   { result := -1, format := ascii "Server '%s', expected group '%s', not '%s'",
     message := ascii "Server 'server4', expected group '0', not '1'",
     elapsedTime := ascii "20.200000" }]

/-- Two failures of opposite sign make the run pass. -/
theorem cancelling_calls_pass : ¬ VerdictCorrect cancellingCalls := by
  intro h
  have hstatus : exitStatus (testRun cancellingCalls) = 0 := by decide
  have hone := h.mp hstatus _ (List.mem_cons_self ..)
  exact absurd hone (by decide)

/-- The output, unlike the status, is faithful: nothing is printed exactly when every result
    was zero. -/
theorem stdout_eq_nil_iff (calls : List ResultCall) :
    (testRun calls).stdout = [] ↔ ∀ c ∈ calls, c.result = 0 := by
  have hfold : ∀ t : TestConnections, (calls.foldl addResult t).stdout = [] ↔
      t.stdout = [] ∧ ∀ c ∈ calls, c.result = 0 := by
    induction calls with
    | nil => simp
    | cons c calls ih =>
      intro t
      rw [List.foldl_cons, ih]
      have htext : ascii ": TEST_FAILED! " ≠ [] := by decide
      by_cases hc : c.result = 0
      · simp [addResult, hc]
      · simp [addResult, hc, htext]
  simpa [testRun] using hfold { globalResult := 0, stdout := [] }

end MaxScaleSystemTest
