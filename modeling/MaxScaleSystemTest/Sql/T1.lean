import MaxScaleSystemTest.Lib.Printf
import MaxScaleSystemTest.Sql.InsertCache
import MaxScaleSystemTest.Sql.SelectCheck

namespace MaxScaleSystemTest.Sql.T1

open CString CInt Printf

/-!
# The blocks of table `t1`

`insert_into_t1` fills `t1` with `N` blocks of `16`, `256`, … rows, one INSERT each, and
`select_from_t1` checks them, one SELECT each.  The server is any one that keeps the rows in
the order they were inserted and answers correctly.

* `insertLoop_step`, `insertLoop_stuck` — one round of the inserting loop: the sixth block is
  the last one whose text `execute_query` can measure in an `int`;
* `checkBlock_spec` — the check of one block;
* `t1_round_trip_iff` — when blocks are stored, and changes to them detected.
-/

/-- A row of `t1`; both columns may be NULL. -/
structure T1Row where
  x1 : Option Int32
  fl : Option Int32
  deriving DecidableEq

/-- A row as a reply shows it. -/
def T1Row.cells (r : T1Row) : Row := [intCell r.x1, intCell r.fl]

/-- `DROP TABLE IF EXISTS t1;`. -/
def dropText : Bytes := ascii "DROP TABLE IF EXISTS t1;"

/-- `CREATE TABLE t1 (x1 int, fl int);`. -/
def createText : Bytes := ascii "CREATE TABLE t1 (x1 int, fl int);"

/-- `select * from t1 where fl=%d;`. -/
def selectText (i : Int32) : Bytes :=
  ascii "select * from t1 where fl=" ++ Decimal.ofInt i.toInt ++ [semicolon]

/-- A server: its states, the rows of `t1` in each (`none` where there is no such table), and
    what it makes of a query text. -/
structure Database where
  State : Type
  t1 : State → Option (List T1Row)
  query : State → Bytes → QueryReply × State
  drop : ∀ s, (query s dropText).1 = .noResult ∧ t1 (query s dropText).2 = none
  create : ∀ s, t1 s = none →
    (query s createText).1 = .noResult ∧ t1 (query s createText).2 = some []
  insert : ∀ s text old (rows : List (Int32 × Int32)), t1 s = some old →
    parseInsert text = some (rows.map fun r => (r.1.toInt, r.2.toInt)) →
    (query s text).1 = .noResult ∧
      t1 (query s text).2 = some (old ++ rows.map fun r => ⟨some r.1, some r.2⟩)
  select : ∀ s i rows, t1 s = some rows → ∃ res, (query s (selectText i)).1 = .result res ∧
    res.fields.length = 2 ∧ res.rows = (rows.filter fun r => r.fl = some i).map T1Row.cells
  selectMissing : ∀ s i, t1 s = none → (query s (selectText i)).1 = .failed
  select_t1 : ∀ s i, t1 (query s (selectText i)).2 = t1 s

/-! ### The functions -/

section Functions

variable (db : Database)

/-- `execute_query` with a format only; `none` when there is no text to be sent.  The text is
    written to the stack, which is taken to be large enough. -/
def executeQuery (s : db.State) (format : Bytes) : Option (ℤ × db.State) :=
  (message format).map fun sql =>
    match db.query s sql with
    | (.failed, s) => (1, s)
    | (_, s) => (0, s)

/-- `create_t1`. -/
def createT1 (s : db.State) : Option (ℤ × db.State) := do
  let (dropped, s) ← executeQuery db s dropText
  let (created, s) ← executeQuery db s createText
  return (dropped + created, s)

/-- The loop of `insert_into_t1`, with `left` rounds to go. -/
def insertLoop : (left : ℕ) → (i x : Int32) → (result : ℤ) → InsertCache → db.State →
    Option (ℤ × InsertCache × db.State)
  | 0, _, _, result, cache, s => some (result, cache, s)
  | left + 1, i, x, result, cache, s => do
    let (sqlstr, cache) ← allocateInsertString cache i x
    let (failed, s) ← executeQuery db s sqlstr
    insertLoop left (i + 1) (x * 16) (result + failed) cache s

/-- `insert_into_t1`. -/
def insertIntoT1 (cache : InsertCache) (N : Int32) (s : db.State) :
    Option (ℤ × InsertCache × db.State) :=
  insertLoop db N.toInt.toNat 0 16 0 cache s

/-- The check of one block: the query of `select_from_t1` with `x` rows expected. -/
def checkBlock (intRes : UInt64) (i x : Int32) (s : db.State) : Option (ℤ × db.State) :=
  executeSelectQueryAndCheck (fun s => db.query s (selectText i)) (toSize x).toNat intRes s

/-- The loop of `select_from_t1`; `junk i` is what the uninitialised variable of the `i`-th
    check holds. -/
def selectLoop (junk : Int32 → UInt64) : (left : ℕ) → (i x : Int32) → (result : ℤ) → db.State →
    Option (ℤ × db.State)
  | 0, _, _, result, s => some (result, s)
  | left + 1, i, x, result, s => do
    let (failed, s) ← checkBlock db (junk i) i x s
    selectLoop junk left (i + 1) (x * 16) (result + failed) s

/-- `select_from_t1`. -/
def selectFromT1 (junk : Int32 → UInt64) (N : Int32) (s : db.State) : Option (ℤ × db.State) :=
  selectLoop db junk N.toInt.toNat 0 16 0 s

end Functions

/-- The texts a process keeps: only `insert_into_t1` makes them. -/
inductive CacheReached : InsertCache → Prop where
  | start : CacheReached fun _ => none
  | insert {db : Database} {cache cache' : InsertCache} {N : Int32} {s s' : db.State} {result : ℤ} :
      CacheReached cache → insertIntoT1 db cache N s = some (result, cache', s') →
      CacheReached cache'

/-! ### Blocks -/

/-- The number of rows of block `i`, as the loops compute it. -/
def blockSize : ℕ → Int32
  | 0 => 16
  | i + 1 => blockSize i * 16

/-- Block `i`. -/
def block (i : ℕ) : List T1Row :=
  (List.range (16 ^ (i + 1))).map fun k => ⟨some (Int32.ofNat k), some (Int32.ofNat i)⟩

/-- The rows of a table whose `fl` is `i`; a missing table has none. -/
def blockRows (t : Option (List T1Row)) (i : ℕ) : List T1Row :=
  (t.getD []).filter fun r => r.fl = some (Int32.ofNat i)

/-- Seven blocks have a size that is an `int`. -/
theorem toInt_blockSize : ∀ i < 7, (blockSize i).toInt = 16 ^ (i + 1) := by decide

theorem toNat_blockSize {i : ℕ} (h : i < 7) : (blockSize i).toInt.toNat = 16 ^ (i + 1) := by
  rw [toInt_blockSize i h]
  norm_cast

theorem ofNat_succ (i : ℕ) : Int32.ofNat (i + 1) = Int32.ofNat i + 1 := Int32.ofNat_add i 1

/-- The sizes grow, up to `2^28`. -/
theorem blockSize_le {i : ℕ} (h : i < 7) : 16 ^ (i + 1) ≤ 2 ^ 28 :=
  (Nat.pow_le_pow_right (by decide) (by omega : i + 1 ≤ 7)).trans (by decide)

/-! ### The text of a block -/

/-- No decimal text holds a percent sign. -/
theorem percent_not_mem_ofInt (z : ℤ) : percent ∉ Decimal.ofInt z := by
  have hnat : percent ∉ Decimal.ofNat z.natAbs := fun h =>
    absurd (Decimal.isdigit_of_mem_ofNat h) (by decide)
  have hminus : percent ≠ Decimal.minus := by decide
  rw [Decimal.ofInt]
  split
  · simp [hminus, hnat]
  · exact hnat

/-- Nor does a tuple. -/
theorem percent_not_mem_tuple (x1 fl : ℤ) : percent ∉ tuple x1 fl := by
  have hopen : percent ∉ ascii "(" := by decide
  have hmid : percent ∉ ascii ", " := by decide
  have hclose : percent ∉ ascii ")" := by decide
  simp [tuple, percent_not_mem_ofInt, hopen, hmid, hclose]

theorem percent_not_mem_rowsText (rows : List (ℤ × ℤ)) : percent ∉ rowsText rows := by
  intro h
  obtain ⟨r, -, hr⟩ := List.mem_flatMap.mp h
  have hcomma : percent ≠ comma := by decide
  simp [rowText, percent_not_mem_tuple, hcomma] at hr

/-- The text of an INSERT with rows in it. -/
theorem createInsertString_succ {N fl : Int32} {n : ℕ} (h : N.toInt.toNat = n + 1) :
    createInsertString N fl = some (ins1 ++
      (rowsText (firstRows n fl.toInt) ++ tuple n fl.toInt ++ [semicolon])) := by
  rw [createInsertString_eq, h]

/-- It holds no percent sign, and is as long as its first part and the rows. -/
theorem text_facts {N fl : Int32} {n : ℕ} {text : Bytes} (h : N.toInt.toNat = n + 1)
    (htext : createInsertString N fl = some text) :
    percent ∉ text ∧ text.length = 31 + (rowsText (firstRows (n + 1) fl.toInt)).length := by
  rw [createInsertString_succ h, Option.some.injEq] at htext
  subst htext
  have hins : percent ∉ ins1 ∧ ins1.length = 31 := by decide +kernel
  have hsemi : percent ≠ semicolon := by decide
  refine ⟨by simp [hins.1, percent_not_mem_rowsText, percent_not_mem_tuple, hsemi], ?_⟩
  rw [firstRows_succ, rowsText_append]
  simp [hins.2, rowsText, rowText]

/-- A row has 7 bytes at least, and 8 from the tenth on. -/
theorem le_length_rowsText (n : ℕ) (fl : ℤ) :
    8 * n ≤ (rowsText (firstRows n fl)).length + min n 10 := by
  induction n with
  | zero => exact Nat.zero_le _
  | succ n ih =>
    -- from the tenth row on the first number has two digits
    have hdigits : (if n < 10 then 1 else 2) ≤ (Decimal.ofNat n).length := by
      split
      · exact List.length_pos_iff.mpr (Decimal.ofNat_ne_nil n)
      · exact (show 2 ≤ (Decimal.ofNat 10).length by decide +kernel).trans
          (Decimal.length_ofNat_mono (by omega))
    have hn : Decimal.ofInt (n : ℤ) = Decimal.ofNat n := by
      rw [Decimal.ofInt, if_neg (by omega), Int.natAbs_natCast]
    have hfl : 1 ≤ (Decimal.ofInt fl).length := by
      have hpos := List.length_pos_iff.mpr (Decimal.ofNat_ne_nil fl.natAbs)
      rw [Decimal.ofInt]
      split
      · exact Nat.succ_le_succ (Nat.zero_le _)
      · exact hpos
    have hrow : (rowsText [((n : ℤ), fl)]).length
        = 6 + (Decimal.ofNat n).length - 1 + (Decimal.ofInt fl).length := by
      have hopen : (ascii "(").length = 1 := rfl
      have hmid : (ascii ", ").length = 2 := rfl
      have hclose : (ascii ")").length = 1 := rfl
      simp only [rowsText, List.flatMap_cons, List.flatMap_nil, List.append_nil, rowText, tuple, hn,
        List.length_append, List.length_singleton, hopen, hmid, hclose]
      omega
    rw [firstRows_succ, rowsText_append, List.length_append, hrow]
    split at hdigits <;> omega

/-! ### Inserting a block -/

/-- The texts kept are those of the blocks. -/
def CacheRight (cache : InsertCache) : Prop :=
  ∀ e text, cache e = some text → createInsertString (blockSize e) (slotFl e) = some text

/-- A small `fl` keeps its value. -/
theorem slotFl_slotOf {i : ℕ} (h : i < 7) :
    ∃ e : Fin 16, slotOf (Int32.ofNat i) = e ∧ (e : ℕ) = i ∧ slotFl e = Int32.ofNat i := by
  have hall : ∀ i < 7, ∃ e : Fin 16,
      slotOf (Int32.ofNat i) = e ∧ (e : ℕ) = i ∧ slotFl e = Int32.ofNat i := by decide
  exact hall i h

/-- The text of a block is handed out, and the texts kept stay right. -/
theorem allocate_block {i : ℕ} (hi : i < 7) {cache : InsertCache} (h : CacheRight cache) :
    ∃ text cache', allocateInsertString cache (Int32.ofNat i) (blockSize i) = some (text, cache') ∧
      createInsertString (blockSize i) (Int32.ofNat i) = some text ∧ CacheRight cache' := by
  obtain ⟨e, hslot, rfl, hfl⟩ := slotFl_slotOf hi
  match hcache : cache e with
  | some text =>
    -- the text of an earlier run, which was of the same block
    have htext : createInsertString (blockSize e) (Int32.ofNat e) = some text :=
      hfl ▸ h e text hcache
    refine ⟨text, cache, ?_, htext, h⟩
    exact allocate_of_filled (c := ⟨Int32.ofNat e, blockSize e⟩) (hslot.symm ▸ hcache)
  | none =>
    obtain ⟨text, htext⟩ : ∃ text, createInsertString (blockSize e) (Int32.ofNat e) = some text :=
      ⟨_, createInsertString_eq _ _⟩
    have hroom : Fits (blockSize e) (slotFl e) := by
      rw [fits_iff, toInt_blockSize e hi]
      exact .inl (by positivity)
    refine ⟨text, Function.update cache e (some text), ?_, htext, fun d t hd => ?_⟩
    · rw [allocate_of_empty (c := ⟨Int32.ofNat e, blockSize e⟩) (hslot.symm ▸ hcache)]
      rw [hfl] at hroom
      simp only [hslot, hfl, htext, Option.map_some, if_pos hroom]
    · by_cases hde : d = e
      · subst hde
        rw [Function.update_self, Option.some.injEq] at hd
        rw [hfl, htext, hd]
      · rw [Function.update_of_ne hde] at hd
        exact h d t hd

/-- The pairs of values of block `i`. -/
def blockPairs (i : ℕ) : List (Int32 × Int32) :=
  (List.range (16 ^ (i + 1))).map fun k => (Int32.ofNat k, Int32.ofNat i)

/-- The text of a block reads as its rows. -/
theorem parseInsert_block {i : ℕ} (hi : i < 7) {text : Bytes}
    (htext : createInsertString (blockSize i) (Int32.ofNat i) = some text) :
    parseInsert text = some ((blockPairs i).map fun r => (r.1.toInt, r.2.toInt)) := by
  have hread := parseInsert_createInsertString (blockSize i) (Int32.ofNat i)
  have hne : 16 ^ (i + 1) ≠ 0 := Nat.pos_iff_ne_zero.mp (by positivity)
  rw [htext, Option.bind_some, toNat_blockSize hi, if_neg hne] at hread
  rw [hread, firstRows, blockPairs, List.map_map]
  congr 1
  apply List.map_congr_left
  intro k hk
  have hlt : k < 2 ^ 31 := by
    have hsize := blockSize_le hi
    have hmem := List.mem_range.mp hk
    omega
  simp only [Function.comp_apply, Int32.toInt_ofNat_of_lt hlt]

/-- Up to the sixth block the length of the text is an `int`, from the seventh on it is not. -/
theorem message_block {i : ℕ} (hi : i < 7) {text : Bytes}
    (htext : createInsertString (blockSize i) (Int32.ofNat i) = some text) :
    message text = if i < 6 then some text else none := by
  have hpos : 16 ^ (i + 1) ≠ 0 := Nat.pos_iff_ne_zero.mp (by positivity)
  obtain ⟨n, hn⟩ := Nat.exists_eq_add_one_of_ne_zero hpos
  have hcount : (blockSize i).toInt.toNat = n + 1 := (toNat_blockSize hi).trans hn
  obtain ⟨hpercent, hlength⟩ := text_facts hcount htext
  by_cases hsix : i < 6
  · -- at most `16 ^ 6` rows of at most 27 bytes
    have hrows := length_rowsText_le (Nat.le_refl (n + 1)) (Int32.ofNat i).toInt
    have hrow := length_rowText_le (blockSize i) (Int32.ofNat i)
    have hcast : ((n + 1 : ℕ) : ℤ) = (blockSize i).toInt := by
      rw [toInt_blockSize i hi, ← hn]
      norm_cast
    rw [hcast] at hrows
    have hsize : n + 1 ≤ 16 ^ 6 := hn ▸ Nat.pow_le_pow_right (by decide) (by omega)
    have hbytes : (n + 1) * (rowText (blockSize i).toInt (Int32.ofNat i).toInt).length
        ≤ 16 ^ 6 * 27 := Nat.mul_le_mul hsize hrow
    rw [if_pos hsix, message_eq_self_iff]
    exact ⟨hpercent, by omega⟩
  · -- `2 ^ 28` rows of 8 bytes, but for the first ten
    obtain rfl : i = 6 := by omega
    have hrows := le_length_rowsText (n + 1) (Int32.ofNat 6).toInt
    have hsize : n + 1 = 2 ^ 28 := hn.symm.trans (by decide)
    rw [if_neg hsix, message, noArguments_of_not_mem hpercent]
    refine if_neg fun hlt => ?_
    have hshort := of_decide_eq_true hlt
    omega

section Loops

variable (db : Database)

/-- A text the server accepts is executed. -/
theorem executeQuery_of_noResult {s : db.State} {sql : Bytes} (hplain : message sql = some sql)
    (hreply : (db.query s sql).1 = .noResult) :
    executeQuery db s sql = some (0, (db.query s sql).2) := by
  have hquery : db.query s sql = (.noResult, (db.query s sql).2) := Prod.ext hreply rfl
  rw [executeQuery, hplain, Option.map_some, hquery]

/-- **One round.** Block `i` is put behind the rows there are, for the first six blocks. -/
theorem insertLoop_step {i : ℕ} (hi : i < 6) {cache : InsertCache} (hcache : CacheRight cache)
    {s : db.State} {rows : List T1Row} (ht : db.t1 s = some rows) :
    ∃ cache' s', CacheRight cache' ∧ db.t1 s' = some (rows ++ block i) ∧
      ∀ left result,
        insertLoop db (left + 1) (Int32.ofNat i) (blockSize i) result cache s =
          insertLoop db left (Int32.ofNat (i + 1)) (blockSize (i + 1)) result cache' s' := by
  obtain ⟨text, cache', halloc, htext, hcache'⟩ := allocate_block (i := i) (by omega) hcache
  have hplain : message text = some text := by
    rw [message_block (by omega) htext, if_pos hi]
  obtain ⟨hreply, hrows⟩ :=
    db.insert s text rows (blockPairs i) ht (parseInsert_block (by omega) htext)
  have hblock : (blockPairs i).map (fun r => T1Row.mk (some r.1) (some r.2)) = block i := by
    rw [blockPairs, block, List.map_map]
    rfl
  rw [hblock] at hrows
  refine ⟨cache', (db.query s text).2, hcache', hrows, fun left result => ?_⟩
  rw [insertLoop, halloc, ofNat_succ, blockSize]
  show (executeQuery db s text).bind _ = _
  rw [executeQuery_of_noResult db hplain hreply, Option.bind_some]
  show insertLoop db left _ _ (result + 0) _ _ = _
  rw [add_zero]

/-- The text of the seventh block is never sent. -/
theorem insertLoop_stuck {cache : InsertCache} (hcache : CacheRight cache) (s : db.State)
    (left : ℕ) (result : ℤ) :
    insertLoop db (left + 1) (Int32.ofNat 6) (blockSize 6) result cache s = none := by
  obtain ⟨text, cache', halloc, htext, -⟩ := allocate_block (i := 6) (by omega) hcache
  have hplain : message text = none := by
    rw [message_block (by omega) htext, if_neg (lt_irrefl 6)]
  rw [insertLoop, halloc]
  show (executeQuery db s text).bind _ = none
  rw [executeQuery, hplain]
  rfl

/-- The rounds from block `i` on, at most six blocks in all. -/
theorem insertLoop_run (left : ℕ) {i : ℕ} (hi : i + left ≤ 6) {cache : InsertCache}
    (hcache : CacheRight cache) {s : db.State} {rows : List T1Row} (ht : db.t1 s = some rows)
    (result : ℤ) :
    ∃ cache' s', insertLoop db left (Int32.ofNat i) (blockSize i) result cache s
        = some (result, cache', s') ∧
      db.t1 s' = some (rows ++ (List.range' i left).flatMap block) := by
  induction left generalizing i cache s rows with
  | zero => exact ⟨cache, s, rfl, by simpa using ht⟩
  | succ left ih =>
    obtain ⟨cache₁, s₁, hcache₁, ht₁, hstep⟩ := insertLoop_step db (by omega : i < 6) hcache ht
    obtain ⟨cache', s', hrun, ht'⟩ := ih (i := i + 1) (by omega) hcache₁ ht₁
    refine ⟨cache', s', by rw [hstep]; exact hrun, ?_⟩
    rw [ht', List.range'_succ, List.flatMap_cons, List.append_assoc]

/-- A seventh block stops the program. -/
theorem insertLoop_seven {left i : ℕ} (hi : i ≤ 6) (hleft : 7 ≤ i + left) {cache : InsertCache}
    (hcache : CacheRight cache) {s : db.State} {rows : List T1Row} (ht : db.t1 s = some rows)
    (result : ℤ) : insertLoop db left (Int32.ofNat i) (blockSize i) result cache s = none := by
  induction left generalizing i cache s rows with
  | zero => omega
  | succ left ih =>
    by_cases hsix : i < 6
    · obtain ⟨cache₁, s₁, hcache₁, ht₁, hstep⟩ := insertLoop_step db hsix hcache ht
      rw [hstep]
      exact ih (by omega) (by omega) hcache₁ ht₁
    · obtain rfl : i = 6 := by omega
      exact insertLoop_stuck db hcache s left result

/-- A run that returns keeps the texts right, whatever the server makes of them. -/
theorem insertLoop_cacheRight {left i : ℕ} (hi : i ≤ 6) {cache cache' : InsertCache}
    (hcache : CacheRight cache) {s s' : db.State} {result result' : ℤ}
    (h : insertLoop db left (Int32.ofNat i) (blockSize i) result cache s
      = some (result', cache', s')) : CacheRight cache' := by
  induction left generalizing i cache s result with
  | zero =>
    cases h
    exact hcache
  | succ left ih =>
    by_cases hsix : i < 6
    · obtain ⟨text, cache₁, halloc, -, hcache₁⟩ := allocate_block (i := i) (by omega) hcache
      -- the server's answer decides whether there is a next round, not what is kept
      rw [insertLoop, halloc] at h
      have h : (executeQuery db s text).bind (fun p => insertLoop db left (Int32.ofNat i + 1)
          (blockSize i * 16) (result + p.1) cache₁ p.2) = some (result', cache', s') := h
      obtain ⟨⟨failed, s₁⟩, -, hrest⟩ := Option.bind_eq_some_iff.mp h
      rw [← ofNat_succ] at hrest
      exact ih (by omega) hcache₁ hrest
    · obtain rfl : i = 6 := by omega
      rw [insertLoop_stuck db hcache] at h
      cases h

/-- The texts of a process are right. -/
theorem cacheRight_of_reached {cache : InsertCache} (h : CacheReached cache) :
    CacheRight cache := by
  induction h with
  | start => nofun
  | insert _ hrun ih => exact insertLoop_cacheRight _ (Nat.zero_le 6) ih hrun

/-- A new table is empty. -/
theorem createT1_eq (s : db.State) :
    ∃ s', createT1 db s = some (0, s') ∧ db.t1 s' = some [] := by
  obtain ⟨hdrop, hnone⟩ := db.drop s
  obtain ⟨hcreate, hempty⟩ := db.create _ hnone
  refine ⟨_, ?_, hempty⟩
  rw [createT1, executeQuery_of_noResult db (by decide +kernel) hdrop]
  show (executeQuery db (db.query s dropText).2 createText).bind (fun p => some (0 + p.1, p.2)) = _
  rw [executeQuery_of_noResult db (by decide +kernel) hcreate]
  rfl

end Loops

/-! ### Checking a block -/

/-- Block `i` has as many rows as it should, but one with a NULL in `x1`. -/
def NullInFullBlock (t : Option (List T1Row)) (i : ℕ) : Prop :=
  (blockRows t i).length = 16 ^ (i + 1) ∧ none ∈ (blockRows t i).map T1Row.x1

/-- The rows of a block are told apart by `x1`. -/
theorem blockRows_eq_map (t : Option (List T1Row)) (i : ℕ) :
    blockRows t i = ((blockRows t i).map T1Row.x1).map fun x => ⟨x, some (Int32.ofNat i)⟩ := by
  rw [List.map_map]
  conv_lhs => rw [← List.map_id (blockRows t i)]
  apply List.map_congr_left
  intro r hr
  have hfl : r.fl = some (Int32.ofNat i) := by simpa using (List.mem_filter.mp hr).2
  rw [id, Function.comp_apply, ← hfl]

/-- A block is right when it has the right values of `x1`, in order. -/
theorem blockRows_eq_block_iff (t : Option (List T1Row)) (i : ℕ) :
    blockRows t i = block i ↔ (blockRows t i).map T1Row.x1
      = (List.range' 0 (16 ^ (i + 1))).map fun k => some (Int32.ofNat k) := by
  constructor
  · intro h
    rw [h, block, List.map_map, List.range_eq_range']
    rfl
  · intro h
    rw [blockRows_eq_map, h, block, List.map_map, List.range_eq_range']
    rfl

section Checks

variable (db : Database)

theorem toNat_toSize_blockSize {i : ℕ} (hi : i < 7) :
    (toSize (blockSize i)).toNat = 16 ^ (i + 1) := by
  have hsize := toNat_toSize (blockSize i)
  have hle := blockSize_le hi
  have hpow : ((16 ^ (i + 1) : ℕ) : ℤ) = 16 ^ (i + 1) := by norm_cast
  rw [toInt_blockSize i hi, ← hpow] at hsize
  generalize 16 ^ (i + 1) = n at hsize hle ⊢
  omega

/-- Without the right number of rows all attempts are made, and the check fails. -/
theorem checkBlock_of_length_ne {i : ℕ} (hi : i < 7) (intRes : UInt64) {s : db.State}
    (hlen : (blockRows (db.t1 s) i).length ≠ 16 ^ (i + 1)) :
    ∃ s', checkBlock db intRes (Int32.ofNat i) (blockSize i) s = some (1, s') ∧
      db.t1 s' = db.t1 s := by
  have hreply : ∀ s₁ res, db.t1 s₁ = db.t1 s →
      (db.query s₁ (selectText (Int32.ofNat i))).1 = .result res →
      res.rows.length ≠ (toSize (blockSize i)).toNat := by
    -- a result has the rows of the table, and a table that is missing gives none
    intro s₁ res ht hres
    rw [toNat_toSize_blockSize hi]
    match htable : db.t1 s₁ with
    | none =>
      rw [db.selectMissing s₁ _ htable] at hres
      cases hres
    | some rows =>
      obtain ⟨res', hres', -, hrows⟩ := db.select s₁ (Int32.ofNat i) rows htable
      rw [hres', QueryReply.result.injEq] at hres
      rw [← hres, hrows, List.length_map]
      rw [← ht, htable] at hlen
      exact hlen
  have hzero : (⟨0, none, 0⟩ : Attempt).rowsFromSelect ≠ (toSize (blockSize i)).toNat := by
    rw [toNat_toSize_blockSize hi]
    exact Nat.ne_of_lt (by positivity)
  obtain ⟨hrows, ht⟩ := attempts_of_mismatch (fun s₁ => db.t1 s₁ = db.t1 s)
    (fun s₁ h => (db.select_t1 s₁ _).trans h) hreply 100 rfl hzero
  exact ⟨_, if_pos hrows, ht⟩

/-- With the right number of rows the first attempt decides. -/
theorem checkBlock_of_length_eq {i : ℕ} (hi : i < 7) (intRes : UInt64) {s : db.State}
    (hlen : (blockRows (db.t1 s) i).length = 16 ^ (i + 1)) :
    checkBlock db intRes (Int32.ofNat i) (blockSize i) s =
      if none ∈ (blockRows (db.t1 s) i).map T1Row.x1 then none
      else some (if blockRows (db.t1 s) i = block i then 0 else 1,
        (db.query s (selectText (Int32.ofNat i))).2) := by
  match htable : db.t1 s with
  | none =>
    rw [htable] at hlen
    exact absurd hlen (Nat.ne_of_lt (by positivity))
  | some rows =>
    obtain ⟨res, hres, hfields, hrows⟩ := db.select s (Int32.ofNat i) rows htable
    have hcells : res.rows = ((blockRows (some rows) i).map T1Row.x1).map
        fun x => [intCell x, intCell (some (Int32.ofNat i))] := by
      rw [hrows]
      show (blockRows (some rows) i).map T1Row.cells = _
      conv_lhs => rw [blockRows_eq_map]
      rw [List.map_map]
      rfl
    rw [htable] at hlen
    have hcount : res.rows.length = (toSize (blockSize i)).toNat := by
      rw [hcells, List.length_map, List.length_map, hlen, toNat_toSize_blockSize hi]
    have hzero : (⟨0, none, 0⟩ : Attempt).rowsFromSelect ≠ (toSize (blockSize i)).toNat := by
      rw [toNat_toSize_blockSize hi]
      exact Nat.ne_of_lt (by positivity)
    -- the row counter, an `int`, does not overflow
    have hsmall : 0 + ((blockRows (some rows) i).map T1Row.x1).length ≤ 2 ^ 31 := by
      have hsize := blockSize_le hi
      rw [List.length_map, hlen]
      omega
    rw [checkBlock, executeSelectQueryAndCheck, attempts_of_match 99 hres hcount hzero]
    simp only [ne_eq, not_true_eq_false, if_false, hfields]
    rw [hcells, checkRows_ofInt _ _ _ _ hsmall]
    simp only [blockRows_eq_block_iff, List.length_map, hlen]
    split <;> rfl

/-- **One check.** A full block with a NULL in it is fatal; otherwise the check tells whether
    the block is right. -/
theorem checkBlock_spec {i : ℕ} (hi : i < 7) (intRes : UInt64) (s : db.State) :
    (NullInFullBlock (db.t1 s) i → checkBlock db intRes (Int32.ofNat i) (blockSize i) s = none) ∧
    (¬ NullInFullBlock (db.t1 s) i → ∃ s',
      checkBlock db intRes (Int32.ofNat i) (blockSize i) s
        = some (if blockRows (db.t1 s) i = block i then 0 else 1, s') ∧
      db.t1 s' = db.t1 s) := by
  by_cases hlen : (blockRows (db.t1 s) i).length = 16 ^ (i + 1)
  · have hcheck := checkBlock_of_length_eq db hi intRes hlen
    refine ⟨fun hnull => by rw [hcheck, if_pos hnull.2], fun hnull => ?_⟩
    refine ⟨_, by rw [hcheck, if_neg fun h => hnull ⟨hlen, h⟩], db.select_t1 s _⟩
  · obtain ⟨s', hcheck, ht⟩ := checkBlock_of_length_ne db hi intRes hlen
    have hwrong : blockRows (db.t1 s) i ≠ block i := by
      intro heq
      rw [heq, block, List.length_map, List.length_range] at hlen
      exact hlen rfl
    exact ⟨fun hnull => absurd hnull.1 hlen, fun _ => ⟨s', by rw [hcheck, if_neg hwrong], ht⟩⟩

/-- A round of `select_from_t1` whose check comes back. -/
theorem selectLoop_step {junk : Int32 → UInt64} {i : ℕ} {s s' : db.State} {failed : ℤ}
    (h : checkBlock db (junk (Int32.ofNat i)) (Int32.ofNat i) (blockSize i) s = some (failed, s'))
    (left : ℕ) (result : ℤ) :
    selectLoop db junk (left + 1) (Int32.ofNat i) (blockSize i) result s =
      selectLoop db junk left (Int32.ofNat (i + 1)) (blockSize (i + 1)) (result + failed) s' := by
  rw [selectLoop, h, ofNat_succ, blockSize]
  rfl

/-- A full block with a NULL in it stops the program. -/
theorem selectLoop_null (junk : Int32 → UInt64) {left i : ℕ} (hi : i + left ≤ 7) {s : db.State}
    {j : ℕ} (hj : i ≤ j ∧ j < i + left) (hnull : NullInFullBlock (db.t1 s) j) (result : ℤ) :
    selectLoop db junk left (Int32.ofNat i) (blockSize i) result s = none := by
  induction left generalizing i s result with
  | zero => omega
  | succ left ih =>
    have hcheck := checkBlock_spec db (by omega : i < 7) (junk (Int32.ofNat i)) s
    by_cases hfatal : NullInFullBlock (db.t1 s) i
    · rw [selectLoop, hcheck.1 hfatal]
      rfl
    · obtain ⟨s', hfirst, ht⟩ := hcheck.2 hfatal
      have hne : i ≠ j := fun heq => hfatal (heq ▸ hnull)
      rw [selectLoop_step db hfirst]
      exact ih (by omega) ⟨by omega, by omega⟩ (ht ▸ hnull) _

/-- **All checks.** Without such blocks the wrong ones are counted. -/
theorem selectLoop_run (junk : Int32 → UInt64) {left i : ℕ} (hi : i + left ≤ 7) {s : db.State}
    (hnull : ∀ j, i ≤ j → j < i + left → ¬ NullInFullBlock (db.t1 s) j) (result : ℤ) :
    ∃ s', selectLoop db junk left (Int32.ofNat i) (blockSize i) result s = some
        (result + ((List.range' i left).countP fun j => blockRows (db.t1 s) j ≠ block j : ℕ), s') := by
  induction left generalizing i s result with
  | zero => exact ⟨s, by simp [selectLoop]⟩
  | succ left ih =>
    have hcheck := checkBlock_spec db (by omega : i < 7) (junk (Int32.ofNat i)) s
    obtain ⟨s₁, hfirst, ht⟩ := hcheck.2 (hnull i (le_refl i) (by omega))
    obtain ⟨s', hrest⟩ := ih (i := i + 1) (s := s₁) (by omega)
      (fun j hij hj => ht ▸ hnull j (by omega) (by omega))
      (result + if blockRows (db.t1 s) i = block i then 0 else 1)
    refine ⟨s', ?_⟩
    rw [selectLoop_step db hfirst, hrest, ht, List.range'_succ, List.countP_cons]
    by_cases hright : blockRows (db.t1 s) i = block i
    · simp [hright]
    · simp [hright]
      ring

end Checks

/-! ### Storing and checking -/

/-- A SELECT finds a block as a whole or nothing of it. -/
theorem filter_block {i j : ℕ} (hi : i < 7) (hj : j < 7) :
    (block j).filter (fun r => r.fl = some (Int32.ofNat i)) = if j = i then block i else [] := by
  have hfl : ∀ r ∈ block j, r.fl = some (Int32.ofNat j) := by
    intro r hr
    obtain ⟨k, -, rfl⟩ := List.mem_map.mp hr
    rfl
  by_cases hji : j = i
  · subst hji
    rw [if_pos rfl]
    exact List.filter_eq_self.mpr fun r hr => by simp [hfl r hr]
  · have hsmall : ∀ a < 7, ∀ b < 7, Int32.ofNat a = Int32.ofNat b → a = b := by decide
    rw [if_neg hji]
    apply List.filter_eq_nil_iff.mpr
    intro r hr hsame
    rw [hfl r hr, decide_eq_true_iff, Option.some.injEq] at hsame
    exact hji (hsmall j hj i hi hsame)

/-- The rows of a table with the first `n` blocks. -/
theorem blockRows_range (n : ℕ) (hn : n ≤ 7) {i : ℕ} (hi : i < 7) :
    blockRows (some ((List.range n).flatMap block)) i = if i < n then block i else [] := by
  show ((List.range n).flatMap block).filter _ = _
  rw [List.filter_flatMap]
  induction n with
  | zero => rfl
  | succ n ih =>
    rw [List.range_succ, List.flatMap_append, ih (by omega), List.flatMap_singleton,
      filter_block hi hn]
    -- block `i` is among the earlier ones, is the last one, or is none of them
    by_cases hlt : i < n
    · rw [if_pos hlt, if_neg (by omega), if_pos (by omega), List.append_nil]
    · by_cases heq : n = i
      · rw [if_neg hlt, if_pos heq, if_pos (by omega), List.nil_append]
      · rw [if_neg hlt, if_neg heq, if_neg (by omega), List.append_nil]

theorem blockRows_blocks {n : ℕ} (hn : n ≤ 7) {i : ℕ} (hi : i < n) :
    blockRows (some ((List.range' 0 n).flatMap block)) i = block i := by
  rw [← List.range_eq_range', blockRows_range n hn (by omega), if_pos hi]

/-- No block of a table is wrong. -/
def HasBlocks (t : Option (List T1Row)) (N : Int32) : Prop :=
  ∀ i < N.toInt.toNat, blockRows t i = block i

/-- After a successful `create_t1` the function `insert_into_t1` stores the blocks, and
    `select_from_t1` finds them right. -/
def StoresBlocks (db : Database) (junk : Int32 → UInt64) (cache : InsertCache) (N : Int32)
    (s : db.State) : Prop :=
  ∀ s₁, createT1 db s = some (0, s₁) → ∃ cache' s₂,
    insertIntoT1 db cache N s₁ = some (0, cache', s₂) ∧ HasBlocks (db.t1 s₂) N ∧
    ∃ s₃, selectFromT1 db junk N s₂ = some (0, s₃)

/-- A block with a row missing, a row too many or rows out of order is reported. -/
def DetectsChanges (db : Database) (junk : Int32 → UInt64) (N : Int32) (s : db.State) : Prop :=
  ¬ HasBlocks (db.t1 s) N → ∃ result s', selectFromT1 db junk N s = some (result, s') ∧ result ≠ 0

/-- A right block has no NULL. -/
theorem not_nullInFullBlock {t : Option (List T1Row)} {i : ℕ} (h : blockRows t i = block i) :
    ¬ NullInFullBlock t i := by
  rintro ⟨-, hnull⟩
  rw [(blockRows_eq_block_iff t i).mp h] at hnull
  obtain ⟨k, -, hk⟩ := List.mem_map.mp hnull
  cases hk

/-- The checks find all blocks right. -/
theorem selectFromT1_of_hasBlocks (db : Database) (junk : Int32 → UInt64) {N : Int32}
    (hN : N.toInt.toNat ≤ 7) {s : db.State} (h : HasBlocks (db.t1 s) N) :
    ∃ s', selectFromT1 db junk N s = some (0, s') := by
  obtain ⟨s', hrun⟩ := selectLoop_run db junk (show 0 + N.toInt.toNat ≤ 7 by omega)
    (fun j _ hj => not_nullInFullBlock (h j (by omega))) 0
  have hnone : (List.range' 0 N.toInt.toNat).countP
      (fun j => decide (blockRows (db.t1 s) j ≠ block j)) = 0 := by
    rw [List.countP_eq_zero]
    intro j hj
    have hlt : j < N.toInt.toNat := by simpa using List.mem_range'_1.mp hj
    simp [h j hlt]
  rw [hnone] at hrun
  exact ⟨s', hrun⟩

/-- **Storing.** The blocks are stored and found right exactly up to six of them. -/
theorem storesBlocks_iff (db : Database) (junk : Int32 → UInt64) {cache : InsertCache}
    (hcache : CacheRight cache) {N : Int32} (hN : N.toInt.toNat ≤ 7) (s : db.State) :
    StoresBlocks db junk cache N s ↔ N.toInt.toNat ≤ 6 := by
  obtain ⟨s₁, hcreate, hempty⟩ := createT1_eq db s
  constructor
  · intro hstores
    obtain ⟨cache', s₂, hinsert, -, -⟩ := hstores s₁ hcreate
    -- with seven blocks the program does not come back from the inserts
    by_contra hseven
    have hstuck := insertLoop_seven db (Nat.zero_le 6) (by omega : 7 ≤ 0 + N.toInt.toNat) hcache
      hempty 0
    rw [insertIntoT1] at hinsert
    exact absurd (hstuck.symm.trans hinsert) nofun
  · intro hsix s' hs'
    rw [hcreate] at hs'
    cases hs'
    obtain ⟨cache', s₂, hinsert, ht⟩ :=
      insertLoop_run db N.toInt.toNat (by omega : 0 + N.toInt.toNat ≤ 6) hcache hempty 0
    have hblocks : HasBlocks (db.t1 s₂) N := by
      intro i hi
      rw [ht, List.nil_append]
      exact blockRows_blocks hN hi
    exact ⟨cache', s₂, hinsert, hblocks, selectFromT1_of_hasBlocks db junk hN hblocks⟩

/-- **Detecting.** Changes are reported exactly in tables without a NULL in a full block. -/
theorem detectsChanges_iff (db : Database) (junk : Int32 → UInt64) {N : Int32}
    (hN : N.toInt.toNat ≤ 7) (s : db.State) :
    DetectsChanges db junk N s ↔ ∀ i < N.toInt.toNat, ¬ NullInFullBlock (db.t1 s) i := by
  constructor
  · intro hdetects i hi hnull
    have hwrong : ¬ HasBlocks (db.t1 s) N := fun h => not_nullInFullBlock (h i hi) hnull
    obtain ⟨result, s', hrun, -⟩ := hdetects hwrong
    have hfatal := selectLoop_null db junk (show 0 + N.toInt.toNat ≤ 7 by omega)
      ⟨Nat.zero_le i, by omega⟩ hnull 0
    exact absurd (hfatal.symm.trans hrun) nofun
  · intro hnull hwrong
    obtain ⟨s', hrun⟩ := selectLoop_run db junk (show 0 + N.toInt.toNat ≤ 7 by omega)
      (fun j _ hj => hnull j (by omega)) 0
    refine ⟨_, s', hrun, ?_⟩
    rw [zero_add, Nat.cast_ne_zero, ← Nat.pos_iff_ne_zero, List.countP_pos_iff]
    -- the block that is wrong is counted
    simp only [HasBlocks, not_forall] at hwrong
    obtain ⟨i, hi, hblock⟩ := hwrong
    exact ⟨i, by simpa using hi, by simpa using hblock⟩

/-- **Blocks of `t1`.** With any texts kept from earlier calls and any table, `N` blocks of
    sizes that are `int`s are stored, found right, and changes to them are detected, exactly
    when there are six of them at most and no block of the right size has a NULL in `x1`. -/
theorem t1_round_trip_iff (db : Database) (junk : Int32 → UInt64) (cache : InsertCache)
    (hcache : CacheReached cache) (N : Int32) (hN : 16 ^ N.toInt.toNat < 2 ^ 31) (s : db.State) :
    StoresBlocks db junk cache N s ∧ DetectsChanges db junk N s ↔
      N.toInt ≤ 6 ∧ ∀ i < N.toInt.toNat, ¬ NullInFullBlock (db.t1 s) i := by
  have hseven : N.toInt.toNat ≤ 7 := by
    by_contra hbig
    have hpow : 16 ^ 8 ≤ 16 ^ N.toInt.toNat := Nat.pow_le_pow_right (by decide) (by omega)
    omega
  rw [storesBlocks_iff db junk (cacheRight_of_reached hcache) hseven, detectsChanges_iff db junk hseven]
  have hcast : N.toInt.toNat ≤ 6 ↔ N.toInt ≤ 6 := by omega
  rw [hcast]

/-! ### A server -/

/-- The number a SELECT of one block asks for. -/
def parseSelect (s : Bytes) : Option Int32 := do
  let s ← expect (ascii "select * from t1 where fl=") s
  let (fl, s) ← Decimal.read s
  if s = [semicolon] then return Int32.ofInt fl
  none

/-- The reply to it. -/
def blockReply (rows : List T1Row) (i : Int32) : ResultSet where
  fields := [ascii "x1", ascii "fl"]
  rows := (rows.filter fun r => r.fl = some i).map T1Row.cells
  width := by
    intro r hr
    obtain ⟨row, -, rfl⟩ := List.mem_map.mp hr
    rfl

/-- A server whose state is the table. -/
def exampleQuery (t : Option (List T1Row)) (text : Bytes) : QueryReply × Option (List T1Row) :=
  if text = dropText then (.noResult, none)
  else if text = createText then
    match t with
    | none => (.noResult, some [])
    | some _ => (.failed, t)
  else
    match parseInsert text, parseSelect text, t with
    | some rows, _, some old =>
      (.noResult, some (old ++ rows.map fun r => ⟨some (Int32.ofInt r.1), some (Int32.ofInt r.2)⟩))
    | none, some i, some rows => (.result (blockReply rows i), t)
    | _, _, _ => (.failed, t)

/-- A SELECT of one block is no other statement. -/
theorem selectText_facts (i : Int32) :
    selectText i ≠ dropText ∧ selectText i ≠ createText ∧ parseInsert (selectText i) = none ∧
      parseSelect (selectText i) = some i := by
  -- the four texts start with different letters
  have hdrop : (dropText.head? = some 68 ∧ createText.head? = some 67) ∧ ins1.head? = some 73 := by
    decide +kernel
  have hselect : (selectText i).head? = some 115 := rfl
  refine ⟨fun h => ?_, fun h => ?_, ?_, ?_⟩
  · rw [h, hdrop.1.1] at hselect
    cases hselect
  · rw [h, hdrop.1.2] at hselect
    cases hselect
  · have hprefix : ¬ ins1 <+: selectText i := by
      rintro ⟨rest, hrest⟩
      have hhead := congrArg List.head? hrest
      rw [List.head?_append, hdrop.2, hselect] at hhead
      cases hhead
    rw [parseInsert, expect, if_neg hprefix]
    rfl
  · have hread : Decimal.read (Decimal.ofInt i.toInt ++ [semicolon]) = some (i.toInt, [semicolon]) := by
      apply Decimal.read_ofInt
      rintro c ⟨⟩
      rfl
    rw [parseSelect, selectText, List.append_assoc, expect_append]
    show (Decimal.read _).bind _ = _
    rw [hread]
    show some (Int32.ofInt i.toInt) = _
    rw [Int32.ofInt_toInt]

/-- An INSERT is no other statement. -/
theorem insert_facts {text : Bytes} {rows : List (ℤ × ℤ)} (h : parseInsert text = some rows) :
    text ≠ dropText ∧ text ≠ createText := by
  have hdrop : parseInsert dropText = none := by decide +kernel
  have hcreate : parseInsert createText = none := by decide +kernel
  refine ⟨?_, ?_⟩
  · rintro rfl
    rw [hdrop] at h
    cases h
  · rintro rfl
    rw [hcreate] at h
    cases h

/-- The server keeps its rows in order and answers correctly. -/
def exampleDatabase : Database where
  State := Option (List T1Row)
  t1 t := t
  query := exampleQuery
  drop _ := ⟨rfl, rfl⟩
  create t ht := by
    have hne : createText ≠ dropText := by decide +kernel
    simp [exampleQuery, hne, ht]
  insert t text old rows ht hparse := by
    obtain ⟨hdrop, hcreate⟩ := insert_facts hparse
    simp [exampleQuery, hdrop, hcreate, ht, hparse, Function.comp_def]
  select t i rows ht := by
    obtain ⟨hdrop, hcreate, hinsert, hselect⟩ := selectText_facts i
    refine ⟨blockReply rows i, ?_, rfl, rfl⟩
    simp [exampleQuery, hdrop, hcreate, hinsert, hselect, ht]
  selectMissing t i ht := by
    obtain ⟨hdrop, hcreate, hinsert, hselect⟩ := selectText_facts i
    simp [exampleQuery, hdrop, hcreate, hinsert, ht]
  select_t1 t i := by
    obtain ⟨hdrop, hcreate, hinsert, hselect⟩ := selectText_facts i
    cases t <;> simp [exampleQuery, hdrop, hcreate, hinsert, hselect]

/-- Four blocks on that server, in a new process. -/
theorem t1_round_trip_four :
    StoresBlocks exampleDatabase (fun _ => 0) (fun _ => none) 4 none ∧
        DetectsChanges exampleDatabase (fun _ => 0) 4 none ↔
      (4 : Int32).toInt ≤ 6 ∧ ∀ i < (4 : Int32).toInt.toNat,
        ¬ NullInFullBlock (exampleDatabase.t1 none) i :=
  t1_round_trip_iff exampleDatabase (fun _ => 0) (fun _ => none) .start 4 (by decide) none

/-- Seven blocks are not stored: the text of the seventh is longer than an `int` can tell. -/
theorem t1_round_trip_not_seven :
    16 ^ (7 : Int32).toInt.toNat < 2 ^ 31 ∧
      ¬ StoresBlocks exampleDatabase (fun _ => 0) (fun _ => none) 7 none := by
  have hseven : (7 : Int32).toInt.toNat = 7 := by decide
  refine ⟨by decide, fun hstores => ?_⟩
  have hright : CacheRight fun _ => none := nofun
  have hsix := (storesBlocks_iff exampleDatabase _ hright (by omega) none).mp hstores
  omega

end MaxScaleSystemTest.Sql.T1
