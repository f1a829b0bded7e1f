import MaxScaleSystemTest.Nodes.ConnectedSlave
import MaxScaleSystemTest.Verdict

namespace MaxScaleSystemTest.Nodes

open CString CInt

/-!
# The slave failover test

`slave_failover` blocks the slave that MaxScale is connected to and expects another one to be
used afterwards.  It keeps the answers of `find_connected_slave` in `unsigned int`s, so that
-1 is never seen to be negative, and does not add the result of the second search.

* `checkMaxscaleAlive_modEq` — what the last check adds to the result;
* `slaveFailover_modEq` — the result of the whole test;
* `slave_failover_iff` — when a failover that has not worked is reported.
-/

/-! ### The test -/

/-- What `check_maxscale_alive` sees: the results of `connect_maxscale` and of the three
    queries, and what `ps` prints; `none` for a NULL pointer. -/
structure Alive where
  connect : Int32
  rwsplit : Int32
  master : Int32
  slave : Int32
  processes : Option Bytes
  processesAgain : Bytes

/-- What the test sees: the result of `connect_rwsplit`, and the numbers of connections to the
    nodes before and after the block.  A text is printed at a time that depends on what has
    been printed before. -/
structure Failover where
  connectRwsplit : Int32
  before : List Int32
  after : List Int32
  alive : Alive
  elapsedTime : Bytes → Bytes
  same_nodes : after.length = before.length
  nodes_lt : before.length < 2 ^ 31

/-- `try_query(conn, "show databases;")`, on the result of the query. -/
def tryQuery (elapsedTime : Bytes → Bytes) (t : TestConnections) (res : Int32) :
    TestConnections :=
  report elapsedTime t res (ascii "Query '%.*s%s' failed!\n")
    (ascii "Query 'show databases;' failed!\n")

/-- `check_maxscale_processes(1)`. -/
def checkMaxscaleProcesses (elapsedTime : Bytes → Bytes) (alive : Alive) (t : TestConnections) :
    TestConnections :=
  match alive.processes with
  | none => t
  | some maxscaleNum =>
    -- the text is cut at the newline, and read again after five seconds
    if atoi (maxscaleNum.takeWhile (· ≠ nl)) ≠ 1 ∧ atoi alive.processesAgain ≠ 1 then
      report elapsedTime t 1 (ascii "Number of MaxScale processes is not %d, it is %s\n")
        (ascii "Number of MaxScale processes is not 1, it is " ++ alive.processesAgain ++ [nl])
    else t

/-- `check_maxscale_alive`. -/
def checkMaxscaleAlive (elapsedTime : Bytes → Bytes) (alive : Alive) (t : TestConnections) :
    TestConnections :=
  let gr := t.globalResult
  let connect := ascii "Can not connect to Maxscale\n"
  let t := report elapsedTime t alive.connect connect connect
  let t := tryQuery elapsedTime t alive.rwsplit
  let t := tryQuery elapsedTime t alive.master
  let t := tryQuery elapsedTime t alive.slave
  -- what has been added so far is added once more
  let dead := ascii "Maxscale is not alive\n"
  let t := report elapsedTime t (t.globalResult - gr) dead dead
  checkMaxscaleProcesses elapsedTime alive t

/-- An `int` converted to `unsigned int`. -/
def toUnsigned (n : ℤ) : UInt32 := UInt32.ofInt n

/-- `main` of `slave_failover`, up to its `return`. -/
def slaveFailover (f : Failover) : TestConnections :=
  let add := fun t result (message : Bytes) => report f.elapsedTime t result message message
  let t : TestConnections := ⟨0, []⟩
  if f.connectRwsplit ≠ 0 then
    add t 1 (ascii "Error connection to RWSplit! Exiting\n")
  else
    let first := findConnectedSlave f.before 0
    let oldSlave := toUnsigned first.currentSlave
    let t := add t first.globalResult (ascii "no current slave\n")
    if oldSlave < 0 ∨ UInt32.ofNat f.before.length ≤ oldSlave then
      add t 1 (ascii "Active slave is not found\n")
    else
      -- the second result stays in `res`
      let currentSlave := toUnsigned (findConnectedSlave f.after first.globalResult).currentSlave
      let t := if currentSlave = oldSlave ∨ currentSlave < 0 then
          add t 1 (ascii "No failover happened\n")
        else t
      checkMaxscaleAlive f.elapsedTime f.alive t

/-! ### Results -/

/-- The number of processes is wrong in both outputs of `ps`. -/
def Alive.wrongProcesses (alive : Alive) : Bool :=
  alive.processes.any fun maxscaleNum =>
    atoi (maxscaleNum.takeWhile (· ≠ nl)) ≠ 1 ∧ atoi alive.processesAgain ≠ 1

/-- The results of the last check: of its connections and queries each counts twice. -/
def Alive.result (alive : Alive) : ℤ :=
  2 * (alive.connect.toInt + alive.rwsplit.toInt + alive.master.toInt + alive.slave.toInt) +
    alive.wrongProcesses.toNat

/-- The result of the search before the block. -/
def Failover.firstResult (f : Failover) : ℤ :=
  if f.before.head? ≠ some 1 ∨ ¬ (f.before.map Int32.toInt).sum ≡ 2 [ZMOD 2 ^ 32] then 1 else 0

section

variable (elapsedTime : Bytes → Bytes)

theorem checkMaxscaleProcesses_globalResult (alive : Alive) (t : TestConnections) :
    (checkMaxscaleProcesses elapsedTime alive t).globalResult =
      t.globalResult + if alive.wrongProcesses then 1 else 0 := by
  unfold checkMaxscaleProcesses Alive.wrongProcesses
  match alive.processes with
  | none => simp
  | some maxscaleNum =>
    simp only [Option.any_some, decide_eq_true_eq]
    split
    · exact report_globalResult elapsedTime t 1 _ _
    · exact (Int32.add_zero _).symm

/-- **The last check.** Up to a multiple of 256, its result is added. -/
theorem checkMaxscaleAlive_modEq (alive : Alive) (t : TestConnections) :
    (checkMaxscaleAlive elapsedTime alive t).globalResult.toInt ≡
      t.globalResult.toInt + alive.result [ZMOD 256] := by
  let processes : Int32 := if alive.wrongProcesses then 1 else 0
  let results := [alive.connect, alive.rwsplit, alive.master, alive.slave, alive.connect,
    alive.rwsplit, alive.master, alive.slave, processes]
  -- the difference that is added is what has been added before
  have hglobal : (checkMaxscaleAlive elapsedTime alive t).globalResult =
      results.foldl (· + ·) t.globalResult := by
    simp only [checkMaxscaleAlive, tryQuery, checkMaxscaleProcesses_globalResult,
      report_globalResult, results, List.foldl_cons, List.foldl_nil, processes]
    grind
  have hprocesses : processes.toInt = alive.wrongProcesses.toNat := by
    simp only [processes]
    cases alive.wrongProcesses <;> rfl
  have hexact : (results.map Int32.toInt).sum = alive.result := by
    simp only [results, List.map_cons, List.map_nil, List.sum_cons, List.sum_nil, hprocesses,
      Alive.result]
    omega
  rw [hglobal, ← hexact]
  exact foldl_add_modEq t.globalResult results

end

/-! ### The verdict -/

/-- No node but the first has connections. -/
def NoSlaveConnected (counts : List Int32) : Prop := ∀ i ≠ 0, ∀ n ∈ counts[i]?, n.toInt ≤ 0

/-- The slave that is connected afterwards is the one that has been blocked. -/
def Failover.SameSlave (f : Failover) : Prop := ∃ i : ℕ, LastUsed f.before i ∧ LastUsed f.after i

/-- The failover has not worked: no slave was connected before the block, or none is afterwards,
    or the one that is connected is the one that has been blocked. -/
def Failover.Broken (f : Failover) : Prop :=
  NoSlaveConnected f.before ∨ NoSlaveConnected f.after ∨ f.SameSlave

/-- The test reports a failure when the failover has not worked. -/
def Failover.Reported (f : Failover) : Prop := f.Broken → exitStatus (slaveFailover f) ≠ 0

section

variable {f : Failover}

theorem toNat_toUnsigned {i : ℕ} (h : i < 2 ^ 31) : (toUnsigned i).toNat = i := by
  rw [toUnsigned, UInt32.ofInt, UInt32.toNat_ofNat']
  omega

/-- A node that is found is one of the nodes. -/
theorem LastUsed.lt {counts : List Int32} {i : ℕ} (h : LastUsed counts i) : i < counts.length := by
  generalize hr : (i : ℤ) = r at h
  cases h with
  | node j n hj hget hn hlast =>
    obtain rfl : i = j := by omega
    exact (List.getElem?_eq_some_iff.mp hget).1
  | none h => omega

/-- The result of the first search, as an `int`. -/
theorem toInt_firstResult (f : Failover) :
    (findConnectedSlave f.before 0).globalResult.toInt = f.firstResult := by
  rw [findConnectedSlave_globalResult, Failover.firstResult]
  split <;> rfl

/-- Without a connection the test fails. -/
theorem exitStatus_of_connect (h : f.connectRwsplit ≠ 0) : exitStatus (slaveFailover f) ≠ 0 := by
  have hglobal : (slaveFailover f).globalResult = 1 := by
    rw [slaveFailover, if_pos h]
    exact report_globalResult _ _ _ _ _
  rw [exitStatus, hglobal]
  decide

/-- Without a slave before the block the test fails. -/
theorem exitStatus_of_noSlave (h : f.connectRwsplit = 0) (hnone : LastUsed f.before (-1)) :
    exitStatus (slaveFailover f) ≠ 0 := by
  have hslave : (findConnectedSlave f.before 0).currentSlave = -1 :=
    (lastUsed_findConnectedSlave 0).unique hnone
  -- -1 is the largest number of its type
  have hlast : UInt32.ofNat f.before.length ≤ toUnsigned (-1) := by
    rw [UInt32.le_iff_toNat_le]
    exact Nat.le_of_lt_succ (UInt32.ofNat f.before.length).toNat_lt
  have hglobal : (slaveFailover f).globalResult =
      0 + (findConnectedSlave f.before 0).globalResult + 1 := by
    simp only [slaveFailover, if_neg (not_not.mpr h), hslave, if_pos (Or.inr hlast),
      report_globalResult]
  rw [exitStatus, hglobal, findConnectedSlave_globalResult]
  split <;> decide

/-- As `unsigned int`s the slaves are the same exactly when they are the same node, and neither
    is negative. -/
theorem sameSlave_iff {i : ℕ} (hi : LastUsed f.before i) {r : ℤ} (hr : LastUsed f.after r) :
    toUnsigned r = toUnsigned i ∨ toUnsigned r < 0 ↔ f.SameSlave := by
  have hbound : i < 2 ^ 31 := hi.lt.trans f.nodes_lt
  have hneg : ¬ toUnsigned r < 0 := by
    rw [UInt32.lt_iff_toNat_lt]
    exact Nat.not_lt_zero _
  rw [or_iff_left hneg]
  constructor
  · intro heq
    have hnat := congrArg UInt32.toNat heq
    rw [toNat_toUnsigned hbound] at hnat
    refine ⟨i, hi, ?_⟩
    cases hr with
    | node j n hj hget hn hlast =>
      have hj' : j < f.after.length := (List.getElem?_eq_some_iff.mp hget).1
      rw [f.same_nodes] at hj'
      rw [toNat_toUnsigned (hj'.trans f.nodes_lt)] at hnat
      exact hnat ▸ .node j n hj hget hn hlast
    | none hnone =>
      -- -1 is the largest number of its type, and no node
      have hminus : (toUnsigned (-1)).toNat = 2 ^ 32 - 1 := rfl
      rw [hminus] at hnat
      omega
  · rintro ⟨j, hj, hj'⟩
    rw [hr.unique hj', hi.unique hj]

/-- **The whole test.** Behind a block, the result is the sum of the results of the first search,
    of the comparison of the slaves, and of the last check. -/
theorem slaveFailover_modEq (h : f.connectRwsplit = 0) {i : ℕ} (hi : LastUsed f.before i) :
    ∃ e : ℤ, ((f.SameSlave ∧ e = 1) ∨ (¬ f.SameSlave ∧ e = 0)) ∧
      (slaveFailover f).globalResult.toInt ≡ f.firstResult + e + f.alive.result [ZMOD 256] := by
  have hslave : (findConnectedSlave f.before 0).currentSlave = i :=
    (lastUsed_findConnectedSlave 0).unique hi
  have hbound : i < 2 ^ 31 := hi.lt.trans f.nodes_lt
  have hold : ¬ (toUnsigned i < 0 ∨ UInt32.ofNat f.before.length ≤ toUnsigned i) := by
    rw [not_or, UInt32.le_iff_toNat_le, UInt32.lt_iff_toNat_lt, toNat_toUnsigned hbound,
      UInt32.toNat_ofNat']
    have hlt := hi.lt
    have hnodes := f.nodes_lt
    exact ⟨Nat.not_lt_zero i, by omega⟩
  generalize hg : (findConnectedSlave f.before 0).globalResult = g
  have hsame := sameSlave_iff hi (@lastUsed_findConnectedSlave f.after g)
  have hfirst : g.toInt = f.firstResult := hg ▸ toInt_firstResult f
  by_cases hs : f.SameSlave
  · refine ⟨1, .inl ⟨hs, rfl⟩, ?_⟩
    simp only [slaveFailover, if_neg (not_not.mpr h), hslave, if_neg hold, hg,
      if_pos (hsame.mpr hs)]
    refine (checkMaxscaleAlive_modEq f.elapsedTime f.alive _).trans (Int.ModEq.add_right _ ?_)
    simp only [report_globalResult]
    have hsum := foldl_add_modEq 0 [g, 1]
    simpa [hfirst] using hsum
  · refine ⟨0, .inr ⟨hs, rfl⟩, ?_⟩
    simp only [slaveFailover, if_neg (not_not.mpr h), hslave, if_neg hold, hg,
      if_neg (mt hsame.mp hs)]
    refine (checkMaxscaleAlive_modEq f.elapsedTime f.alive _).trans (Int.ModEq.add_right _ ?_)
    simp [report_globalResult, hfirst]

/-- **The verdict.** A failover that has not worked is reported, or there is none, exactly when
    there was no connection or no slave to begin with, the failover has worked, or the results
    that are collected do not add up to a multiple of 256. -/
theorem slave_failover_iff (f : Failover) :
    f.Reported ↔
      f.connectRwsplit ≠ 0 ∨ (∀ i ≠ 0, ∀ n ∈ f.before[i]?, n = 0) ∨ ¬ f.Broken ∨
        (f.SameSlave ∧ ¬ (256 : ℤ) ∣ f.firstResult + 1 + f.alive.result) ∨
        (¬ f.SameSlave ∧ ¬ (256 : ℤ) ∣ f.firstResult + f.alive.result) := by
  by_cases hconnect : f.connectRwsplit = 0
  · have hlast := @lastUsed_findConnectedSlave f.before 0
    generalize (findConnectedSlave f.before 0).currentSlave = r at hlast
    cases hlast with
    | none hnone =>
      refine iff_of_true (fun _ => ?_) (.inr (.inl hnone))
      exact exitStatus_of_noSlave hconnect (.none hnone)
    | node i n hi hget hn hlast =>
      have hused : LastUsed f.before i := .node i n hi hget hn hlast
      have hsome : ¬ ∀ i ≠ 0, ∀ n ∈ f.before[i]?, n = 0 := fun h => hn (h i hi n hget)
      obtain ⟨e, he, hmod⟩ := slaveFailover_modEq hconnect hused
      rw [Failover.Reported, ne_eq, exitStatus, lowByte_eq_zero_iff, hmod.dvd_iff]
      simp only [hconnect, ne_eq, not_true_eq_false, hsome, false_or]
      rcases he with ⟨hs, rfl⟩ | ⟨hs, rfl⟩
      · simp only [hs, true_and, not_true_eq_false, false_and, or_false]
        exact imp_iff_not_or
      · simp only [hs, false_and, not_false_eq_true, true_and, false_or, add_zero]
        exact imp_iff_not_or
  · exact iff_of_true (fun _ => exitStatus_of_connect hconnect) (.inl hconnect)

end

/-- Afterwards the only slave is gone, and MaxScale is alive. -/
def lostSlave : Failover where
  connectRwsplit := 0
  before := [1, 1]
  after := [1, 0]
  alive := ⟨0, 0, 0, 0, some (ascii "1\n"), []⟩
  elapsedTime := fun _ => ascii "80.000000"
  same_nodes := rfl
  nodes_lt := by decide

/-- The test passes. -/
theorem slave_failover_lost :
    NoSlaveConnected lostSlave.after ∧ exitStatus (slaveFailover lostSlave) = 0 ∧
      ¬ lostSlave.Reported := by
  have hnone : NoSlaveConnected lostSlave.after := by
    intro i hi n hn
    match i with
    | 1 =>
      cases hn
      decide
    | i + 2 => cases hn
  have hexit : exitStatus (slaveFailover lostSlave) = 0 := by decide +kernel
  exact ⟨hnone, hexit, fun h => h (.inr (.inl hnone)) hexit⟩

end MaxScaleSystemTest.Nodes
