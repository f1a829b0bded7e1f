import MaxScaleSystemTest.Nodes.WaitUntilPos

namespace MaxScaleSystemTest.Nodes

open CString InputLoop Sql

/-!
# Waiting for the slaves

`Mariadb_nodes::sync_slaves` reads the master's binlog position and waits for every other
node to reach it.

* `readMasterStatus`, `syncSlaves` — the function, on the replies it gets.
* `waitForNodes_returned_iff` — it returns when every wait comes back.
* `sync_sound_iff` — when that is the right moment.
-/

/-- `sync_slaves(node)` on the reply to `SHOW MASTER STATUS`: the file is taken from column
    `node`, the offset from column 1. -/
def readMasterStatus (node : ℕ) : QueryReply → Reading := readReply (readPosition node node 1)

/-- Where `sync_slaves` stands: returned, polling node `i`, or crashed. -/
inductive SyncStatus where
  | returned
  | waiting (i : ℕ)
  | fault

/-- The `for` loop of `sync_slaves` over the nodes still to be polled. -/
def waitForNodes (node : ℕ) (target : BinlogPos) (replies : ℕ → List QueryReply) :
    List ℕ → SyncStatus
  | [] => .returned
  | i :: is =>
    if i ≠ node then
      match waitUntilPos target (replies i) with
      | .running _ => .waiting i
      | .ended .fault _ => .fault
      | .ended _ _ => waitForNodes node target replies is
    else waitForNodes node target replies is

/-- `Mariadb_nodes::sync_slaves` on `N` connected nodes: `master` is the reply to
    `SHOW MASTER STATUS`, `replies i` what node `i` answers to `SHOW SLAVE STATUS`. -/
def syncSlaves (N node : ℕ) (master : QueryReply) (replies : ℕ → List QueryReply) : SyncStatus :=
  match readMasterStatus node master with
  | .failed => .returned
  | .skipped => .returned
  | .fault => .fault
  | .shown target => waitForNodes node target replies (List.range N)

/-- `sync_slaves` gets past its loop exactly when every wait comes back. -/
theorem waitForNodes_returned_iff {node : ℕ} {target : BinlogPos}
    {replies : ℕ → List QueryReply} (hq : ∀ i, ∀ r ∈ replies i, r ≠ .failed) (nodes : List ℕ) :
    waitForNodes node target replies nodes = .returned ↔
      ∀ i ∈ nodes, i ≠ node → ∃ rest, waitUntilPos target (replies i) = .ended .reached rest := by
  induction nodes with
  | nil => simp [waitForNodes]
  | cons i is ih =>
    rw [List.forall_mem_cons, ← ih, waitForNodes]
    by_cases hi : i = node
    · simp [hi]
    · simp only [ne_eq, hi, not_false_eq_true, if_true, forall_const]
      cases hw : waitUntilPos target (replies i) with
      | running s => simp
      | ended e rest =>
        cases e with
        | reached => simp
        | queryFailed => exact absurd hw (wait_not_queryFailed (hq i))
        | fault => simp

/-! ### Soundness of `sync_slaves` -/

/-- `sync_slaves` returns only after every other node has shown, among the replies polled
    from it, that it has executed everything up to the position the master shows.  The
    waits are for the position as the code reads it. -/
def SyncSound (N : ℕ) (master : Showing 0 0 1) (replies : ℕ → List QueryReply) : Prop :=
  syncSlaves N 0 master.reply replies = .returned →
    ∀ i < N, i ≠ 0 → ∃ polled rest, replies i = polled ++ rest ∧
      waitUntilPos master.asRead (replies i) = .ended .reached rest ∧
      ∃ reply ∈ polled, Executed master.pos reply

/-- The SQL thread is not in a file before the master's.  Where the row is not read, its
    `Read_Master_Log_Pos` being NULL, or the master's offset does not fit an `int`, the
    offset must be there to be seen as well. -/
def SqlThreadInFile (pos : BinlogPos) (reply : QueryReply) : Prop :=
  ∃ row number position, replyRow reply = some row ∧ ShowsAt 9 21 row number position ∧
    pos.1 ≤ digitsValue number ∧
    (row[6]? = some none ∨ 2 ^ 31 ≤ pos.2 →
      toLex pos ≤ toLex ((digitsValue number, digitsValue position) : BinlogPos))

/-- A row that has been read and has let the wait end shows an offset of the target or more,
    where that fits an `int`. -/
theorem offset_reached {master : Showing 0 0 1} {taken : List QueryReply} {reply : QueryReply}
    {row : Row} {position : Bytes} (h : WaitEndedBy master.asRead taken reply)
    (hrow : replyRow reply = some row) (hoffset : row[21]? = some (some position))
    (hdigits : IsNumber position) (htested : row[6]? ≠ some none) (hfits : master.pos.2 < 2 ^ 31) :
    master.pos.2 ≤ digitsValue position := by
  have hread : readSlaveStatus reply = readPosition 6 5 21 row := readReply_of_row _ hrow
  have hsat := h.2
  unfold Satisfies at hsat
  split at hsat
  · rename_i pos hshown
    rw [hread] at hshown
    obtain ⟨_, digits, _, _, -, hcell, -, -, rfl⟩ := readPosition_eq_shown_iff.mp hshown
    obtain rfl : position = digits := by simpa [hoffset] using hcell
    calc master.pos.2 = atoi master.position := ((atoi_eq_digitsValue_iff master.isPosition.2).mpr
            hfits).symm
      _ ≤ atoi position := hsat.2
      _ ≤ digitsValue position := atoi_le_digitsValue hdigits.2
  · -- a row with both cells set is not skipped
    rename_i hskipped
    rw [hread, readPosition_eq, hoffset] at hskipped
    split at hskipped
    · cases hskipped
    · exact absurd ‹_› htested
    · cases hn : fileNumber row[5]?.join <;> simp [hn] at hskipped
  · exact hsat.elim

/-- At the reply that ends the wait, the file of the SQL thread is what remains to be seen. -/
theorem executed_iff_sqlThreadInFile {master : Showing 0 0 1} {taken : List QueryReply}
    {reply : QueryReply} (h : WaitEndedBy master.asRead taken reply) :
    Executed master.pos reply ↔ SqlThreadInFile master.pos reply := by
  constructor
  · rintro ⟨row, number, position, hrow, hshows, hle⟩
    refine ⟨row, number, position, hrow, hshows, ?_, fun _ => hle⟩
    rw [Prod.Lex.toLex_le_toLex] at hle
    show master.pos.1 ≤ digitsValue number
    omega
  · rintro ⟨row, number, position, hrow, hshows, hfile, hlex⟩
    refine ⟨row, number, position, hrow, hshows, ?_⟩
    by_cases hunread : row[6]? = some none ∨ 2 ^ 31 ≤ master.pos.2
    · exact hlex hunread
    · obtain ⟨htested, hfits⟩ := not_or.mp hunread
      obtain ⟨-, hdigits, -, -, hoffset⟩ := hshows
      have hreach := offset_reached h hrow hoffset hdigits htested (not_le.mp hfits)
      exact lex_of_components ⟨hfile, hreach⟩

/-- Unless some slave's wait never ends: on every slave the reply that ends the wait has the
    SQL thread in the master's file or a later one, or a reply before it has shown the
    master's position executed. -/
def SqlThreadsArrive (N : ℕ) (master : Showing 0 0 1) (replies : ℕ → List QueryReply) : Prop :=
  (∀ i < N, i ≠ 0 → ∃ taken reply rest,
      replies i = taken ++ reply :: rest ∧ WaitEndedBy master.asRead taken reply) →
    ∀ i < N, i ≠ 0 → ∀ taken reply rest,
      replies i = taken ++ reply :: rest → WaitEndedBy master.asRead taken reply →
        SqlThreadInFile master.pos reply ∨ ∃ q ∈ taken, Executed master.pos q

theorem syncSlaves_showing {N : ℕ} (master : Showing 0 0 1) (replies : ℕ → List QueryReply) :
    syncSlaves N 0 master.reply replies
      = waitForNodes 0 master.asRead replies (List.range N) := by
  have hread : readMasterStatus 0 master.reply = .shown master.asRead := readReply_showing master
  simp only [syncSlaves, hread]

/-- `sync_slaves` returns when every wait is ended by a reply. -/
theorem syncSlaves_returned_iff (N : ℕ) (master : Showing 0 0 1)
    {replies : ℕ → List QueryReply} (hq : ∀ i, ∀ r ∈ replies i, r ≠ .failed) :
    syncSlaves N 0 master.reply replies = .returned ↔
      ∀ i < N, i ≠ 0 → ∃ taken reply rest,
        replies i = taken ++ reply :: rest ∧ WaitEndedBy master.asRead taken reply := by
  rw [syncSlaves_showing, waitForNodes_returned_iff hq]
  simp only [List.mem_range]
  constructor
  · intro h i hi hne
    obtain ⟨rest, hw⟩ := h i hi hne
    obtain ⟨taken, reply, hsplit, hend⟩ := wait_reached_iff.mp hw
    exact ⟨taken, reply, rest, hsplit, hend⟩
  · intro h i hi hne
    obtain ⟨taken, reply, rest, hsplit, hend⟩ := h i hi hne
    exact ⟨rest, wait_reached_iff.mpr ⟨taken, reply, hsplit, hend⟩⟩

/-- What the replies up to the last one polled have shown. -/
theorem exists_executed_iff {master : Showing 0 0 1} {taken : List QueryReply}
    {reply : QueryReply} (h : WaitEndedBy master.asRead taken reply) :
    (∃ q ∈ taken ++ [reply], Executed master.pos q) ↔
      SqlThreadInFile master.pos reply ∨ ∃ q ∈ taken, Executed master.pos q := by
  rw [← executed_iff_sqlThreadInFile h]
  simp only [List.mem_append, List.mem_singleton]
  constructor
  · intro hex
    obtain ⟨q, hmem, hq⟩ := hex
    rcases hmem with hmem | rfl
    · exact .inr ⟨q, hmem, hq⟩
    · exact .inl hq
  · intro hex
    rcases hex with hq | ⟨q, hmem, hq⟩
    · exact ⟨reply, .inr rfl, hq⟩
    · exact ⟨q, .inl hmem, hq⟩

/-- A reply to `SHOW MASTER STATUS`. -/
def masterStatus (file position : String) : QueryReply :=
  .result {
    fields := [ascii "File", ascii "Position", ascii "Binlog_Do_DB", ascii "Binlog_Ignore_DB"]
    rows := [[some (ascii file), some (ascii position), some [], some []]]
    width := by simp }

/-- The master is at offset 500 of file 2. -/
def masterAtTwo : Showing 0 0 1 where
  reply := masterStatus "mar-bin.000002" "500"
  row := [some (ascii "mar-bin.000002"), some (ascii "500"), some [], some []]
  name := ascii "mar-bin"
  number := ascii "000002"
  position := ascii "500"
  isRow := rfl
  isNumber := ⟨List.cons_ne_nil _ _, List.all_eq_true.mp rfl⟩
  isPosition := ⟨List.cons_ne_nil _ _, List.all_eq_true.mp rfl⟩
  fileCell := rfl
  offsetCell := rfl
  testCell := ⟨ascii "mar-bin.000002", rfl⟩

/-- The IO thread of the slave has followed into file 2 while the SQL thread is at offset
    1000 of file 1. -/
def tornStatus : QueryReply := slaveStatus "mar-bin.000002" "600" "mar-bin.000001" "1000"

end MaxScaleSystemTest.Nodes
