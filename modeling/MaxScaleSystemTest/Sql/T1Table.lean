import MaxScaleSystemTest.Verdict
import MaxScaleSystemTest.Lib.Decimal
import MaxScaleSystemTest.Sql.Client

namespace MaxScaleSystemTest.Sql

open CString CInt

/-!
# Is table `t1` there?

`check_t1_table` asks every connection for its tables and compares what `check_if_t1_exists`
makes of the answer with a boolean.  That function answers 0 for a table that does not exist
and is meant to answer -1 in case of an error, but does so for a broken connection and a
missing result only: a query that fails gives 0.

* `checkIfT1Exists_eq` — the answer for each kind of reply;
* `checkT1Table_eq_zero_iff` — when the returned sum of failures is zero;
* `check_t1_table_iff` — when a zero can be trusted.
-/

/-- What an open connection answers to `USE` and to `show tables;`. -/
structure T1Answer where
  useFails : Bool
  tables : QueryReply

/-- A connection; `none` for a NULL pointer. -/
abbrev T1Link := Option T1Answer

/-- The connections of a test: through MaxScale, and to the nodes directly. -/
structure T1Links where
  rwsplit : T1Link
  master : T1Link
  slave : T1Link
  nodes : List T1Link

/-- All of them. -/
def T1Links.all (links : T1Links) : List T1Link :=
  links.rwsplit :: links.master :: links.slave :: links.nodes

/-- Does the row name `t1`? -/
def namesT1 (row : Row) : Bool := row[0]? = some (some (ascii "t1"))

/-- `check_if_t1_exists`. -/
def checkIfT1Exists (conn : T1Link) : Int32 :=
  match conn with
  | none => -1
  -- "-1 - in case of error", says the comment on the function
  | some ⟨_, .failed⟩ => 0
  | some ⟨_, .noResult⟩ => -1
  | some ⟨_, .result res⟩ => res.rows.foldl (fun t1 row => if namesT1 row then 1 else t1) 0

/-- What `execute_query` returns for the `USE`. -/
def executeUse (conn : T1Link) : Int32 :=
  match conn with
  | none => 1
  | some answer => if answer.useFails then 1 else 0

/-- `use_db`. -/
def useDb (links : T1Links) : Int32 :=
  (links.rwsplit :: links.slave :: links.master :: links.nodes).foldl
    (fun localResult conn => localResult + executeUse conn) 0

/-- `exists == presence`: the `bool` is converted to `int`. -/
def asExpected (presence : Bool) (conn : T1Link) : Bool :=
  checkIfT1Exists conn = if presence then 1 else 0

/-- One of the checks of `check_t1_table`; `formatEnd` and `messageEnd` say where the table was
    looked for. -/
def checkT1At (elapsedTime : Bytes → Bytes) (presence : Bool) (db formatEnd messageEnd : Bytes)
    (conn : T1Link) (t : TestConnections) : TestConnections :=
  let actual := ascii (if presence then "NOT" else "")
  if asExpected presence conn then t
  else
    report elapsedTime t 1 (ascii "Table t1 is %s found in '%s' database using " ++ formatEnd)
      (ascii "Table t1 is " ++ actual ++ ascii " found in '" ++ db ++ ascii "' database using " ++
        messageEnd)

/-- The loop over the nodes, from node `i` on. -/
def checkT1Nodes (elapsedTime : Bytes → Bytes) (presence : Bool) (db : Bytes) :
    (i : ℕ) → List T1Link → TestConnections → TestConnections
  | _, [], t => t
  | i, conn :: nodes, t =>
    checkT1Nodes elapsedTime presence db (i + 1) nodes
      (checkT1At elapsedTime presence db (ascii "direct connect to node %d\n")
        (ascii "direct connect to node " ++ Decimal.ofNat i ++ [nl]) conn t)

/-- `TestConnections::check_t1_table`: the object afterwards, and the value returned. -/
def checkT1Table (elapsedTime : Bytes → Bytes) (t : TestConnections) (presence : Bool) (db : Bytes)
    (links : T1Links) : TestConnections × Int32 :=
  let startResult := t.globalResult
  let failed := ascii "use db failed\n"
  let rwsplit := ascii "RWSplit\n"
  let master := ascii "Readconnrouter with router option master\n"
  let slave := ascii "Readconnrouter with router option slave\n"
  let t := report elapsedTime t (useDb links) failed failed
  let t := checkT1At elapsedTime presence db rwsplit rwsplit links.rwsplit t
  let t := checkT1At elapsedTime presence db master master links.master t
  let t := checkT1At elapsedTime presence db slave slave links.slave t
  let t := checkT1Nodes elapsedTime presence db 0 links.nodes t
  (t, t.globalResult - startResult)

/-! ### What a connection answers -/

/-- The reply lists a table `t1`. -/
def HasT1 (res : ResultSet) : Prop := ∃ row ∈ res.rows, namesT1 row

instance (res : ResultSet) : Decidable (HasT1 res) :=
  inferInstanceAs (Decidable (∃ row ∈ res.rows, namesT1 row))

/-- The query for the tables failed. -/
def QueryFailed : T1Link → Prop
  | some ⟨_, .failed⟩ => True
  | _ => False

/-- The `USE` succeeded. -/
def UseOk (conn : T1Link) : Prop := executeUse conn = 0

instance (conn : T1Link) : Decidable (UseOk conn) := inferInstanceAs (Decidable (_ = _))

/-- The query for the tables succeeded, and lists `t1` if and only if it is to be there. -/
def ShowsT1 (presence : Bool) : T1Link → Prop
  | some ⟨_, .result res⟩ => HasT1 res ↔ presence = true
  | _ => False

instance (presence : Bool) : (conn : T1Link) → Decidable (ShowsT1 presence conn)
  | none => isFalse id
  | some ⟨_, .failed⟩ => isFalse id
  | some ⟨_, .noResult⟩ => isFalse id
  | some ⟨_, .result res⟩ => inferInstanceAs (Decidable (HasT1 res ↔ presence = true))

/-- The loop over the rows finds `t1` in any of them. -/
theorem foldl_namesT1 (rows : List Row) (t1 : Int32) :
    rows.foldl (fun t1 row => if namesT1 row then (1 : Int32) else t1) t1
      = if ∃ row ∈ rows, namesT1 row then 1 else t1 := by
  induction rows generalizing t1 with
  | nil => simp
  | cons row rows ih =>
    rw [List.foldl_cons, ih]
    by_cases hrow : namesT1 row
    · simp [hrow]
    · simp [hrow]

/-- A result set gives 1 or 0. -/
theorem checkIfT1Exists_result (useFails : Bool) (res : ResultSet) :
    checkIfT1Exists (some ⟨useFails, .result res⟩) = if HasT1 res then 1 else 0 :=
  foldl_namesT1 res.rows 0

/-- A query that fails gives 0, too, and passes where the table is to be absent. -/
theorem asExpected_of_failed {presence : Bool} {conn : T1Link} (h : QueryFailed conn) :
    asExpected presence conn = !presence := by
  match conn with
  | some ⟨_, .failed⟩ => cases presence <;> rfl

/-- Where a failed query does not pass for an absent table, the check of a connection tells
    what it shows. -/
theorem asExpected_iff {presence : Bool} {conn : T1Link}
    (h : presence = true ∨ ¬ QueryFailed conn) :
    asExpected presence conn ↔ ShowsT1 presence conn := by
  match conn with
  | none => cases presence <;> simp [asExpected, checkIfT1Exists, ShowsT1]
  | some ⟨_, .noResult⟩ => cases presence <;> simp [asExpected, checkIfT1Exists, ShowsT1]
  | some ⟨_, .failed⟩ =>
    obtain rfl := h.resolve_right (not_not.mpr trivial)
    simp [asExpected, checkIfT1Exists, ShowsT1]
  | some ⟨_, .result res⟩ =>
    unfold asExpected ShowsT1
    rw [checkIfT1Exists_result]
    by_cases hhas : HasT1 res
    · rw [if_pos hhas]
      cases presence <;> simp [hhas]
    · rw [if_neg hhas]
      cases presence <;> simp [hhas]

/-! ### The sum of the failures -/

/-- The failures among some connections: `USE`s that failed, and unexpected answers. -/
def failures (presence : Bool) (conns : List T1Link) : ℕ :=
  conns.countP (fun conn => executeUse conn ≠ 0) +
    conns.countP (fun conn => !asExpected presence conn)

theorem executeUse_eq (conn : T1Link) :
    executeUse conn = Int32.ofNat (if executeUse conn ≠ 0 then 1 else 0) := by
  match conn with
  | none => rfl
  | some answer => cases h : answer.useFails <;> simp [executeUse, h]

/-- `use_db` returns the number of failures, cut to an `int`. -/
theorem foldl_executeUse (conns : List T1Link) (localResult : Int32) :
    conns.foldl (fun localResult conn => localResult + executeUse conn) localResult
      = localResult + Int32.ofNat (conns.countP fun conn => executeUse conn ≠ 0) := by
  induction conns generalizing localResult with
  | nil => simp
  | cons conn conns ih =>
    rw [List.foldl_cons, ih, executeUse_eq, List.countP_cons, Int32.ofNat_add, Int32.add_assoc,
      Int32.add_comm (Int32.ofNat (List.countP _ conns))]
    simp only [decide_eq_true_eq]

variable (elapsedTime : Bytes → Bytes) (presence : Bool) (db : Bytes)

theorem checkT1At_globalResult (formatEnd messageEnd : Bytes) (conn : T1Link)
    (t : TestConnections) :
    (checkT1At elapsedTime presence db formatEnd messageEnd conn t).globalResult
      = t.globalResult + Int32.ofNat (if !asExpected presence conn then 1 else 0) := by
  unfold checkT1At
  dsimp only
  cases asExpected presence conn with
  | true => exact (Int32.add_zero _).symm
  | false => exact report_globalResult ..

theorem checkT1Nodes_globalResult (i : ℕ) (conns : List T1Link) (t : TestConnections) :
    (checkT1Nodes elapsedTime presence db i conns t).globalResult
      = t.globalResult + Int32.ofNat (conns.countP fun conn => !asExpected presence conn) := by
  induction conns generalizing i t with
  | nil => exact (Int32.add_zero _).symm
  | cons conn conns ih =>
    rw [checkT1Nodes, ih, checkT1At_globalResult, List.countP_cons, Int32.ofNat_add,
      Int32.add_assoc, Int32.add_comm (Int32.ofNat (List.countP _ conns))]

/-- The value returned is the number of failures, cut to an `int`. -/
theorem checkT1Table_eq (t : TestConnections) (links : T1Links) :
    (checkT1Table elapsedTime t presence db links).2
      = Int32.ofNat (failures presence links.all) := by
  have hsum : (checkT1Table elapsedTime t presence db links).1.globalResult
      = t.globalResult + Int32.ofNat (failures presence links.all) := by
    simp only [checkT1Table, checkT1Nodes_globalResult, checkT1At_globalResult,
      report_globalResult, useDb, foldl_executeUse, Int32.zero_add, Int32.add_assoc,
      ← Int32.ofNat_add]
    congr 2
    simp only [failures, T1Links.all, List.countP_cons]
    omega
  have hret : (checkT1Table elapsedTime t presence db links).2
      = (checkT1Table elapsedTime t presence db links).1.globalResult - t.globalResult := rfl
  rw [hret, hsum, Int32.add_comm, Int32.add_sub_cancel]

/-- It is zero exactly when the failures are a multiple of `2^32`. -/
theorem checkT1Table_eq_zero_iff (t : TestConnections) (links : T1Links) :
    (checkT1Table elapsedTime t presence db links).2 = 0 ↔
      2 ^ 32 ∣ failures presence links.all := by
  rw [checkT1Table_eq, ofNat_eq_zero_iff]

/-! ### When a zero can be trusted -/

/-- The `USE`s that failed, and the connections that do not show what is expected. -/
def mistakes (presence : Bool) (conns : List T1Link) : ℕ :=
  conns.countP (fun conn => ¬ UseOk conn) + conns.countP fun conn => ¬ ShowsT1 presence conn

theorem mistakes_eq_zero_iff (conns : List T1Link) :
    mistakes presence conns = 0 ↔ ∀ conn ∈ conns, UseOk conn ∧ ShowsT1 presence conn := by
  unfold mistakes
  rw [Nat.add_eq_zero_iff, List.countP_eq_zero, List.countP_eq_zero]
  simp only [decide_eq_true_eq, not_not]
  exact ⟨fun h conn hc => ⟨h.1 conn hc, h.2 conn hc⟩,
    fun h => ⟨fun conn hc => (h conn hc).1, fun conn hc => (h conn hc).2⟩⟩

/-- What is counted as a failure is a mistake, unless a failed query passes. -/
theorem failures_eq_mistakes {conns : List T1Link}
    (h : presence = true ∨ ∀ conn ∈ conns, ¬ QueryFailed conn) :
    failures presence conns = mistakes presence conns := by
  have huse : conns.countP (fun conn => executeUse conn ≠ 0)
      = conns.countP fun conn => ¬ UseOk conn := rfl
  have hshows : conns.countP (fun conn => !asExpected presence conn)
      = conns.countP fun conn => ¬ ShowsT1 presence conn := by
    apply List.countP_congr
    intro conn hconn
    have hanswer := asExpected_iff (h.imp id fun hall => hall conn hconn)
    rw [Bool.not_eq_true', decide_eq_true_iff, ← hanswer, Bool.not_eq_true]
  rw [failures, mistakes, huse, hshows]

/-- A zero says that every query succeeded and showed what was expected; and a query that
    fails never passes for one that shows no such table. -/
structure ZeroTrusted (t : TestConnections) (links : T1Links) : Prop where
  zero : (checkT1Table elapsedTime t presence db links).2 = 0 →
    ∀ conn ∈ links.all, UseOk conn ∧ ShowsT1 presence conn
  failed : ∀ conn ∈ links.all, QueryFailed conn → ¬ asExpected presence conn

/-- **When a zero can be trusted.** The check is right exactly when no query for the tables
    fails where the table is to be absent, and there are not `2^32` mistakes or a multiple of
    them. -/
theorem check_t1_table_iff (t : TestConnections) (links : T1Links) :
    ZeroTrusted elapsedTime presence db t links ↔
      (presence = true ∨ ∀ conn ∈ links.all, ¬ QueryFailed conn) ∧
        (2 ^ 32 ∣ mistakes presence links.all → mistakes presence links.all = 0) := by
  have hfailed : (∀ conn ∈ links.all, QueryFailed conn → ¬ asExpected presence conn) ↔
      (presence = true ∨ ∀ conn ∈ links.all, ¬ QueryFailed conn) := by
    cases presence with
    | true =>
      refine iff_of_true (fun conn _ hf => ?_) (.inl rfl)
      rw [asExpected_of_failed hf]
      nofun
    | false =>
      refine ⟨fun h => .inr fun conn hconn hf => h conn hconn hf (asExpected_of_failed hf), ?_⟩
      exact fun h conn hconn hf => absurd hf (h.resolve_left nofun conn hconn)
  constructor
  · rintro ⟨hzero, hpass⟩
    have hseen := hfailed.mp hpass
    rw [checkT1Table_eq_zero_iff, failures_eq_mistakes presence hseen] at hzero
    exact ⟨hseen, fun hdvd => (mistakes_eq_zero_iff presence links.all).mpr (hzero hdvd)⟩
  · rintro ⟨hseen, hdvd⟩
    refine ⟨fun hzero => ?_, hfailed.mpr hseen⟩
    rw [checkT1Table_eq_zero_iff, failures_eq_mistakes presence hseen] at hzero
    exact (mistakes_eq_zero_iff presence links.all).mp (hdvd hzero)

/-- A connection to a database without tables. -/
def noTables : T1Link :=
  some ⟨false, .result { fields := [ascii "Tables_in_test"], rows := [], width := nofun }⟩

/-- One node, on which the query for the tables fails. -/
def brokenNode : T1Links where
  rwsplit := noTables
  master := noTables
  slave := noTables
  nodes := [some ⟨false, .failed⟩]

/-- The table is taken for absent on that node. -/
theorem broken_node_passes :
    ¬ ZeroTrusted (fun _ => ascii "0000") false (ascii "test") ⟨0, []⟩ brokenNode := by
  intro h
  have hzero : (checkT1Table (fun _ => ascii "0000") ⟨0, []⟩ false (ascii "test") brokenNode).2
      = 0 := (checkT1Table_eq_zero_iff ..).mpr (by decide +kernel)
  have hnode : some ⟨false, .failed⟩ ∈ brokenNode.all := by simp [brokenNode, T1Links.all]
  exact (h.zero hzero _ hnode).2

end MaxScaleSystemTest.Sql
