import MaxScaleSystemTest.Nodes.SyncSlaves

namespace MaxScaleSystemTest.Nodes

open CString InputLoop Sql

/-!
# The target of `sync_slaves`

`sync_slaves(node)` takes the name of the binlog file from the column `node` of the reply to
`SHOW MASTER STATUS`, which is the file's column for the default node 0 only, and the number
of the file from behind the first dot of the name.

* `readPosition_eq_fault_iff` — which rows cannot be read;
* `waitForNodes_fault_iff` — where the loop over the nodes uses a bad pointer;
* `sync_target_iff` — when the slaves are polled for the master's position and no missing cell
  is used on the way.
-/

/-- The row has a file `name.number` in its first column and a position in the second. -/
def ShowsPosition : Row → Bytes → Bytes → Prop := ShowsAt 0 1

/-- The target `sync_slaves(node)` hands to `wait_until_pos` is the master's position, and
    neither of them uses a cell that is missing or NULL, or a dot that is not there. -/
structure TargetRight (N node : ℕ) (master : QueryReply) (replies : ℕ → List QueryReply) :
    Prop where
  target : ∀ row number position, replyRow master = some row → ShowsPosition row number position →
    readMasterStatus node master = .shown (digitsValue number, digitsValue position)
  noFault : syncSlaves N node master replies ≠ .fault

/-! ### Reading a row -/

/-- Reading the row uses a cell it does not have, or goes behind a dot that is not there. -/
def Unreadable (test file offset : ℕ) (row : Row) : Prop :=
  row[test]? = none ∨
    ∃ text, row[test]? = some (some text) ∧
      (row[offset]? = none ∨ ∃ digits, row[offset]? = some (some digits) ∧
        ∀ name, row[file]? = some (some name) → fileDot ∉ name)

theorem readPosition_eq_fault_iff {test file offset : ℕ} {row : Row} :
    readPosition test file offset row = .fault ↔ Unreadable test file offset row := by
  have hname : fileNumber row[file]?.join = none ↔
      ∀ name, row[file]? = some (some name) → fileDot ∉ name := by
    rw [fileNumber_eq_none_iff]
    simp only [Option.join_eq_some_iff]
  rw [readPosition_eq, Unreadable, ← hname]
  cases row[test]? with
  | none => simp
  | some cell =>
    cases cell with
    | none => simp
    | some text =>
      cases row[offset]? with
      | none => simp
      | some pos =>
        cases pos with
        | none => simp
        | some digits => cases fileNumber row[file]?.join <;> simp

theorem readReply_eq_fault_iff {test file offset : ℕ} {reply : QueryReply} :
    readReply (readPosition test file offset) reply = .fault ↔
      ∃ row, replyRow reply = some row ∧ Unreadable test file offset row := by
  cases reply with
  | failed => simp [readReply, replyRow]
  | noResult => simp [readReply, replyRow]
  | result res =>
    cases hrow : res.firstRow with
    | none => simp [readReply, replyRow, hrow]
    | some row => simp [readReply, replyRow, hrow, readPosition_eq_fault_iff]

/-! ### The waits -/

/-- `wait_until_pos` gets to a reply that it cannot read. -/
def MeetsUnreadable (target : BinlogPos) (replies : List QueryReply) : Prop :=
  ∃ taken reply rest, replies = taken ++ reply :: rest ∧ NeverStops (EndsLoop target) taken ∧
    ∃ row, replyRow reply = some row ∧ Unreadable 6 5 21 row

/-- `wait_until_pos` comes back: it gets to a reply that it can read and that lets it end. -/
def CameBack (target : BinlogPos) (replies : List QueryReply) : Prop :=
  ∃ taken reply rest, replies = taken ++ reply :: rest ∧ NeverStops (EndsLoop target) taken ∧
    EndsLoop target taken reply ∧ ¬ ∃ row, replyRow reply = some row ∧ Unreadable 6 5 21 row

theorem endOf_eq_fault_iff (taken : List QueryReply) (reply : QueryReply) :
    .fault = endOf taken reply ↔ ∃ row, replyRow reply = some row ∧ Unreadable 6 5 21 row := by
  rw [← readReply_eq_fault_iff, ← readSlaveStatus]
  unfold endOf
  cases readSlaveStatus reply <;> simp

theorem wait_fault_iff {target : BinlogPos} {replies : List QueryReply} :
    (∃ rest, waitUntilPos target replies = .ended .fault rest) ↔
      MeetsUnreadable target replies := by
  simp only [wait_until_pos_ends_iff, endOf_eq_fault_iff]
  constructor
  · rintro ⟨rest, taken, reply, hsplit, hnever, -, hrow⟩
    exact ⟨taken, reply, rest, hsplit, hnever, hrow⟩
  · rintro ⟨taken, reply, rest, hsplit, hnever, hrow⟩
    have hfault : readSlaveStatus reply = .fault := readReply_eq_fault_iff.mpr hrow
    exact ⟨rest, taken, reply, hsplit, hnever, .inr (.inr hfault), hrow⟩

theorem wait_back_iff {target : BinlogPos} {replies : List QueryReply} :
    (∃ e rest, waitUntilPos target replies = .ended e rest ∧ e ≠ .fault) ↔
      CameBack target replies := by
  simp only [wait_until_pos_ends_iff]
  constructor
  · rintro ⟨e, rest, ⟨taken, reply, hsplit, hnever, hends, rfl⟩, hne⟩
    rw [ne_comm, Ne, endOf_eq_fault_iff] at hne
    exact ⟨taken, reply, rest, hsplit, hnever, hends, hne⟩
  · rintro ⟨taken, reply, rest, hsplit, hnever, hends, hne⟩
    rw [← endOf_eq_fault_iff taken, ← Ne, ne_comm] at hne
    exact ⟨_, rest, ⟨taken, reply, hsplit, hnever, hends, rfl⟩, hne⟩

/-- The waits on the nodes from `s` on come to node `i` and fault there. -/
def FaultsAt (node : ℕ) (target : BinlogPos) (replies : ℕ → List QueryReply) (s i : ℕ) : Prop :=
  i ≠ node ∧ MeetsUnreadable target (replies i) ∧
    ∀ j, s ≤ j → j < i → j ≠ node → CameBack target (replies j)

/-- Either the first wait faults, or it comes back and a later one faults. -/
theorem exists_faultsAt_iff (node : ℕ) (target : BinlogPos) (replies : ℕ → List QueryReply)
    (s n : ℕ) :
    (∃ i, s ≤ i ∧ i < s + (n + 1) ∧ FaultsAt node target replies s i) ↔
      (s ≠ node ∧ MeetsUnreadable target (replies s)) ∨
        (s ≠ node → CameBack target (replies s)) ∧
          ∃ i, s + 1 ≤ i ∧ i < s + 1 + n ∧ FaultsAt node target replies (s + 1) i := by
  constructor
  · rintro ⟨i, hs, hi, hne, hmeets, hback⟩
    rcases Nat.eq_or_lt_of_le hs with rfl | hlt
    · exact .inl ⟨hne, hmeets⟩
    · refine .inr ⟨fun hsn => hback s (le_refl s) hlt hsn, i, hlt, by omega, hne, hmeets, ?_⟩
      exact fun j hj hji => hback j (by omega) hji
  · rintro (⟨hne, hmeets⟩ | ⟨hfirst, i, hs, hi, hne, hmeets, hback⟩)
    · exact ⟨s, le_refl s, by omega, hne, hmeets, fun j hj hlt => absurd hlt (by omega)⟩
    · refine ⟨i, by omega, by omega, hne, hmeets, fun j hj hji hjn => ?_⟩
      rcases Nat.eq_or_lt_of_le hj with rfl | hlt
      · exact hfirst hjn
      · exact hback j hlt hji hjn

/-- **Where the waits fault.** At the first node whose wait does not come back, if that is
    because of a reply it cannot read. -/
theorem waitForNodes_fault_iff (node : ℕ) (target : BinlogPos) (replies : ℕ → List QueryReply)
    (s n : ℕ) :
    waitForNodes node target replies (List.range' s n) = .fault ↔
      ∃ i, s ≤ i ∧ i < s + n ∧ FaultsAt node target replies s i := by
  induction n generalizing s with
  | zero =>
    refine iff_of_false nofun ?_
    rintro ⟨i, hs, hi, -⟩
    omega
  | succ n ih =>
    rw [exists_faultsAt_iff, ← ih (s + 1), List.range'_succ, waitForNodes]
    by_cases hs : s = node
    · simp [hs]
    · rw [if_pos hs, ← wait_fault_iff, ← wait_back_iff]
      cases hw : waitUntilPos target (replies s) with
      | running pos => simp [hs]
      | ended e rest => cases e <;> simp [hs]

/-! ### When the target is right -/

/-- What a row of `SHOW MASTER STATUS` and the slaves' replies must be like: the row has a
    column `node`, with a dot in it unless it or the position is NULL, and where it shows a
    file and a position, the column holds a name with that number behind its first dot, and
    the position is below `2^31`; no wait gets to a reply it cannot read. -/
structure ReadsMaster (N node : ℕ) (row : Row) (replies : ℕ → List QueryReply) : Prop where
  readable : ¬ Unreadable node node 1 row
  number : ∀ number position, ShowsPosition row number position →
    ∃ front rest, row[node]? = some (some (front ++ fileDot :: rest)) ∧ fileDot ∉ front ∧
      atoi rest = digitsValue number
  range : ∀ number position, ShowsPosition row number position → digitsValue position < 2 ^ 31
  slaves : ∀ front rest position, row[node]? = some (some (front ++ fileDot :: rest)) →
    fileDot ∉ front → row[1]? = some (some position) →
    ∀ i < N, ¬ FaultsAt node (atoi rest, atoi position) replies 0 i

/-- A reply without a row is not read. -/
theorem readReply_of_no_row (readRow : Row → Reading) {reply : QueryReply}
    (h : replyRow reply = none) : ∀ pos, readReply readRow reply ≠ .shown pos := by
  cases reply with
  | failed => exact fun _ => nofun
  | noResult => exact fun _ => nofun
  | result res =>
    have hrow : res.firstRow = none := h
    simp [readReply, hrow]

theorem readMasterStatus_of_row {node : ℕ} {master : QueryReply} {row : Row}
    (h : replyRow master = some row) :
    readMasterStatus node master = readPosition node node 1 row :=
  readReply_of_row _ h

/-- `sync_slaves` faults on the reply itself, or in its waits. -/
theorem syncSlaves_fault_iff (N node : ℕ) (master : QueryReply) (replies : ℕ → List QueryReply) :
    syncSlaves N node master replies = .fault ↔
      readMasterStatus node master = .fault ∨
        ∃ target, readMasterStatus node master = .shown target ∧
          ∃ i < N, FaultsAt node target replies 0 i := by
  have hwaits : ∀ target, waitForNodes node target replies (List.range N) = .fault ↔
      ∃ i < N, FaultsAt node target replies 0 i := by
    intro target
    rw [List.range_eq_range', waitForNodes_fault_iff]
    simp
  unfold syncSlaves
  cases readMasterStatus node master <;> simp [hwaits]

/-- **When the target is right.** `sync_slaves(node)` polls the slaves for the master's position
    and uses no missing cell exactly on the rows and replies `ReadsMaster` describes. -/
theorem sync_target_iff (N node : ℕ) (master : QueryReply) (replies : ℕ → List QueryReply) :
    TargetRight N node master replies ↔
      ∀ row, replyRow master = some row → ReadsMaster N node row replies := by
  constructor
  · rintro ⟨htarget, hfault⟩ row hrow
    have hread : readMasterStatus node master = readPosition node node 1 row :=
      readMasterStatus_of_row hrow
    rw [Ne, syncSlaves_fault_iff, not_or, hread] at hfault
    obtain ⟨hreadable, hwaits⟩ := hfault
    have hshown := fun number position => htarget row number position hrow
    simp only [hread, readPosition_eq_shown_iff] at hshown hwaits
    refine ⟨readPosition_eq_fault_iff.not.mp hreadable, ?_, ?_, ?_⟩
    · intro number position hshows
      obtain ⟨_, _, front, rest, -, -, hname, hfront, heq⟩ := hshown number position hshows
      exact ⟨front, rest, hname, hfront, (congrArg Prod.fst heq).symm⟩
    · intro number position hshows
      obtain ⟨_, digits, _, _, -, hdigits, -, -, heq⟩ := hshown number position hshows
      obtain ⟨-, hposition, -, -, hpos⟩ := hshows
      rw [hpos, Option.some.injEq, Option.some.injEq] at hdigits
      subst hdigits
      exact (atoi_eq_digitsValue_iff hposition.2).mp (congrArg Prod.snd heq).symm
    · intro front rest position hname hfront hpos i hi hat
      exact hwaits ⟨_, ⟨_, position, front, rest, hname, hpos, hname, hfront, rfl⟩, i, hi, hat⟩
  · intro h
    refine ⟨fun row number position hrow hshows => ?_, fun hfault => ?_⟩
    · obtain ⟨front, rest, hname, hfront, hnumber⟩ := (h row hrow).number number position hshows
      have hrange := (h row hrow).range number position hshows
      obtain ⟨-, hposition, -, -, hpos⟩ := hshows
      rw [readMasterStatus_of_row hrow, readPosition_eq_shown_iff]
      refine ⟨_, position, front, rest, hname, hpos, hname, hfront, ?_⟩
      rw [hnumber, (atoi_eq_digitsValue_iff hposition.2).mpr hrange]
    · rcases (syncSlaves_fault_iff N node master replies).mp hfault with hread | hwaits
      · obtain ⟨row, hrow, hbad⟩ := readReply_eq_fault_iff.mp hread
        exact (h row hrow).readable hbad
      · obtain ⟨target, hread, i, hi, hat⟩ := hwaits
        cases hrow : replyRow master with
        | none =>
          -- no position is read from a reply without a row
          exact absurd hread (readReply_of_no_row _ hrow target)
        | some row =>
          rw [readMasterStatus_of_row hrow, readPosition_eq_shown_iff] at hread
          obtain ⟨_, position, front, rest, -, hpos, hname, hfront, rfl⟩ := hread
          exact (h row hrow).slaves front rest position hname hfront hpos i hi hat

/-- For the default node the column is the right one: names without a dot and numbers that fit
    an `int` are read as they are shown. -/
theorem readMasterStatus_default {master : QueryReply} {row : Row} {name number position : Bytes}
    (hrow : replyRow master = some row) (hfile : row[0]? = some (some (name ++ fileDot :: number)))
    (hpos : row[1]? = some (some position)) (hname : fileDot ∉ name)
    (hnumber : ∀ c ∈ number, isdigit c = true) (hposition : ∀ c ∈ position, isdigit c = true)
    (hn : digitsValue number < 2 ^ 31) (hp : digitsValue position < 2 ^ 31) :
    readMasterStatus 0 master = .shown (digitsValue number, digitsValue position) := by
  rw [readMasterStatus_of_row hrow, readPosition_eq_shown_iff]
  refine ⟨_, position, name, number, hfile, hpos, hfile, hname, ?_⟩
  rw [(atoi_eq_digitsValue_iff hnumber).mpr hn, (atoi_eq_digitsValue_iff hposition).mpr hp]

/-- With node 1 as the master the position is taken for the name of the file, and has no dot. -/
theorem second_master_unreadable :
    ¬ TargetRight 2 1 (masterStatus "mar-bin.000002" "500") (fun _ => []) := by
  intro h
  have hfault : readMasterStatus 1 (masterStatus "mar-bin.000002" "500") = .fault := by
    refine readReply_eq_fault_iff.mpr ⟨_, rfl, .inr ⟨ascii "500", rfl, .inr ⟨ascii "500", rfl, ?_⟩⟩⟩
    rintro name ⟨⟩
    decide
  exact h.noFault ((syncSlaves_fault_iff ..).mpr (.inl hfault))

end MaxScaleSystemTest.Nodes
