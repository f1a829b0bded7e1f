import MaxScaleSystemTest.Lib.CInt
import MaxScaleSystemTest.Sql.Client

namespace MaxScaleSystemTest.Sql

open CString CInt

/-!
# Counting the connections of MaxScale

`get_conn_num` counts the rows of `show processlist` that come from MaxScale.  It looks for
the address and the host name of MaxScale as substrings of the `Host` cell, each on its own,
so that a row can be counted twice, and it takes one connection off for a local MaxScale.

* `countRows_eq` — the counter holds the sum of the hits;
* `hits_add_missed` — the hits of a row against whether it is to be counted;
* `get_conn_num_iff` — when the number of connections is returned.
-/

/-- A row of the process list: `row[2]` and `row[3]`. -/
structure ProcessRow where
  host : Cell
  db : Cell

/-- What `mysql_query` and `mysql_store_result` give for `show processlist;`. -/
inductive ProcessReply where
  | failed
  | noResult
  | result (rows : List ProcessRow)

/-- `127.0.0.1`, the address of a local MaxScale. -/
def localhostIP : Bytes := ascii "127.0.0.1"

/-- `hostname_internal`. -/
def hostnameInternal (ip hostname : Bytes) : Bytes :=
  if ip = localhostIP then ascii "localhost" else hostname

/-- `(strstr(host, pattern) != NULL) && (strstr(rowDb, db) != NULL)`. -/
def isHit (pattern db host rowDb : Bytes) : Bool :=
  (strstr host pattern).isSome && (strstr rowDb db).isSome

/-- The body of the loop over the rows. -/
def countRow (ip internal db : Bytes) (connNum : UInt32) (row : ProcessRow) : UInt32 :=
  match row.host, row.db with
  | some host, some rowDb =>
    let connNum := if isHit ip db host rowDb then connNum + 1 else connNum
    if isHit internal db host rowDb then connNum + 1 else connNum
  | _, _ => connNum

/-- The loop over the rows. -/
def countRows (ip internal db : Bytes) (rows : List ProcessRow) : UInt32 :=
  rows.foldl (countRow ip internal db) 0

/-- `get_conn_num`, on the reply to its query (`none` for a NULL connection). -/
def getConnNum (conn : Option ProcessReply) (ip hostname db : Bytes) : Int32 :=
  let connNum : UInt32 :=
    match conn with
    | none | some .failed => 0
    | some .noResult => -1
    | some (.result rows) => countRows ip (hostnameInternal ip hostname) db rows
  -- the harness's own connection shows in the list of a local backend
  let connNum := if ip = localhostIP then connNum - 1 else connNum
  connNum.toInt32

/-! ### The connections to be counted -/

/-- The byte `:`. -/
def colon : UInt8 := 58

/-- The host part of a cell `host:port`. -/
def hostPart (cell : Bytes) : Bytes := (beforeLast cell colon).getD cell

/-- Is the row one of MaxScale's connections to `db`? -/
def isWanted (ip hostname db : Bytes) (row : ProcessRow) : Bool :=
  match row.host, row.db with
  | some host, some rowDb => (hostPart host = ip || hostPart host = hostname) && rowDb = db
  | _, _ => false

/-- The number of MaxScale's connections to `db`. -/
def wantedRows (ip hostname db : Bytes) (rows : List ProcessRow) : ℕ :=
  rows.countP (isWanted ip hostname db)

/-- The number to be returned: the harness's own connection is left out for a local
    MaxScale. -/
def wantedNum (ip hostname db : Bytes) (rows : List ProcessRow) : ℕ :=
  if ip = localhostIP then wantedRows ip hostname db rows - 1 else wantedRows ip hostname db rows

/-! ### Hits against wanted rows -/

/-- How many of the two patterns a row matches. -/
def hits (ip hostname db : Bytes) (row : ProcessRow) : ℕ :=
  match row.host, row.db with
  | some host, some rowDb =>
    (isHit ip db host rowDb).toNat + (isHit (hostnameInternal ip hostname) db host rowDb).toNat
  | _, _ => 0

/-- The hits of a row that are too many: all but one of a wanted row, all of another. -/
def extraHits (ip hostname db : Bytes) (row : ProcessRow) : ℕ :=
  hits ip hostname db row - (isWanted ip hostname db row).toNat

/-- A wanted row that neither pattern matches. -/
def isMissed (ip hostname db : Bytes) (row : ProcessRow) : Bool :=
  isWanted ip hostname db row && hits ip hostname db row = 0

section Counting

variable (ip hostname db : Bytes)

/-- One row adds its hits to the counter. -/
theorem countRow_eq (n : ℕ) (row : ProcessRow) :
    countRow ip (hostnameInternal ip hostname) db (UInt32.ofNat n) row
      = UInt32.ofNat (n + hits ip hostname db row) := by
  match row with
  | ⟨none, _⟩ | ⟨some _, none⟩ => rfl
  | ⟨some host, some rowDb⟩ =>
    have hadd : ∀ (b : Bool) (m : ℕ),
        (if b then UInt32.ofNat m + 1 else UInt32.ofNat m) = UInt32.ofNat (m + b.toNat) := by
      intro b m
      cases b <;> simp
    simp only [countRow, hits]
    rw [hadd, hadd, Nat.add_assoc]

/-- The loop adds up the hits. -/
theorem countRows_eq (rows : List ProcessRow) :
    countRows ip (hostnameInternal ip hostname) db rows
      = UInt32.ofNat (rows.map (hits ip hostname db)).sum := by
  have hloop : ∀ n : ℕ, rows.foldl (countRow ip (hostnameInternal ip hostname) db) (UInt32.ofNat n)
      = UInt32.ofNat (n + (rows.map (hits ip hostname db)).sum) := by
    induction rows with
    | nil => intro n; rfl
    | cons row rows ih =>
      intro n
      rw [List.foldl_cons, countRow_eq, ih, List.map_cons, List.sum_cons, add_assoc]
  have hzero := hloop 0
  rw [Nat.zero_add] at hzero
  exact hzero

/-- Up to a missed row, the hits of a row are the extra ones and one for a wanted row. -/
theorem hits_add_missed (row : ProcessRow) :
    hits ip hostname db row + (isMissed ip hostname db row).toNat
      = extraHits ip hostname db row + (isWanted ip hostname db row).toNat := by
  rw [extraHits, isMissed]
  by_cases hwanted : isWanted ip hostname db row
  · by_cases hhits : hits ip hostname db row = 0
    · simp [hwanted, hhits]
    · simp [hwanted, hhits]
      omega
  · simp [hwanted]

/-- The same for all rows. -/
theorem sum_hits_add_missed (rows : List ProcessRow) :
    (rows.map (hits ip hostname db)).sum + rows.countP (isMissed ip hostname db)
      = (rows.map (extraHits ip hostname db)).sum + wantedRows ip hostname db rows := by
  induction rows with
  | nil => rfl
  | cons row rows ih =>
    have hrow := hits_add_missed ip hostname db row
    have hcount : ∀ p : ProcessRow → Bool,
        (row :: rows).countP p = rows.countP p + (p row).toNat := by
      intro p
      rw [List.countP_cons]
      cases p row <;> rfl
    rw [wantedRows] at ih ⊢
    rw [List.map_cons, List.map_cons, List.sum_cons, List.sum_cons, hcount, hcount]
    omega

/-- The host part of a cell is a substring of it. -/
theorem hostPart_infix (cell : Bytes) : hostPart cell <:+: cell := by
  rw [hostPart]
  match hlast : beforeLast cell colon with
  | none => exact List.infix_refl cell
  | some front => exact ((List.prefix_append _ _).trans (prefix_of_beforeLast hlast)).isInfix

/-- For a MaxScale on another machine no row is missed: the host is looked for by both of
    its names. -/
theorem not_isMissed (hip : ip ≠ localhostIP) (row : ProcessRow) :
    isMissed ip hostname db row = false := by
  match row with
  | ⟨none, _⟩ | ⟨some _, none⟩ => rfl
  | ⟨some host, some rowDb⟩ =>
    simp only [isMissed, isWanted, hits, hostnameInternal, if_neg hip]
    by_cases hdb : rowDb = db
    · have hfound : (strstr rowDb db).isSome := (strstr_isSome_iff _ _).mpr (hdb ▸ List.infix_refl _)
      -- the part before the port is the address or the name
      by_cases hhost : hostPart host = ip
      · have hhit : (strstr host ip).isSome :=
          (strstr_isSome_iff _ _).mpr (hhost ▸ hostPart_infix host)
        simp [isHit, hhit, hfound]
      · by_cases hname : hostPart host = hostname
        · have hhit : (strstr host hostname).isSome :=
            (strstr_isSome_iff _ _).mpr (hname ▸ hostPart_infix host)
          simp [isHit, hhit, hfound]
        · simp [hhost, hname]
    · simp [hdb]

end Counting

/-! ### When the number is right -/

/-- The rows on which `get_conn_num` is right.  On another machine no row may have an extra
    hit; on the same machine the extra hits make up for the rows missed, and for one row if
    there is no connection at all.  Counts are compared modulo `2^32`, and one from `2^31`
    on is no `int`. -/
def CountsRight (ip hostname db : Bytes) (rows : List ProcessRow) : Prop :=
  let extra := (rows.map (extraHits ip hostname db)).sum
  let missed := rows.countP (isMissed ip hostname db)
  let n := wantedRows ip hostname db rows
  if ip = localhostIP then
    if n = 0 then extra ≡ 1 [MOD 2 ^ 32] else extra ≡ missed [MOD 2 ^ 32] ∧ n ≤ 2 ^ 31
  else extra ≡ 0 [MOD 2 ^ 32] ∧ n < 2 ^ 31

/-- **The count.** `get_conn_num` returns the number of MaxScale's connections exactly on
    these rows. -/
theorem get_conn_num_iff (rows : List ProcessRow) (ip hostname db : Bytes) :
    (getConnNum (some (.result rows)) ip hostname db).toInt = wantedNum ip hostname db rows ↔
      CountsRight ip hostname db rows := by
  have hsum := sum_hits_add_missed ip hostname db rows
  rw [getConnNum, countRows_eq, wantedNum, CountsRight]
  by_cases hip : ip = localhostIP
  · simp only [if_pos hip]
    rw [toInt32_ofNat_sub_one_eq_iff]
    by_cases hn : wantedRows ip hostname db rows = 0
    · -- a row that is missed is one of those wanted, of which there is none
      have hmissed : rows.countP (isMissed ip hostname db) = 0 := by
        rw [List.countP_eq_zero]
        intro row hrow hmiss
        have hwanted : isWanted ip hostname db row = true := by
          rw [isMissed, Bool.and_eq_true] at hmiss
          exact hmiss.1
        exact List.countP_eq_zero.mp hn row hrow hwanted
      rw [if_pos hn]
      simp only [Nat.ModEq]
      omega
    · rw [if_neg hn]
      simp only [Nat.ModEq]
      omega
  · simp only [if_neg hip]
    have hmissed : rows.countP (isMissed ip hostname db) = 0 := by
      rw [List.countP_eq_zero]
      intro row _
      rw [not_isMissed ip hostname db hip row]
      exact Bool.false_ne_true
    rw [toInt32_ofNat_eq_iff]
    simp only [Nat.ModEq]
    omega

/-- One connection from a MaxScale whose host name is its address. -/
def exampleConnection : ProcessRow where
  host := some (ascii "192.168.122.104:51234")
  db := some (ascii "test")

/-- It is counted twice. -/
theorem get_conn_num_twice :
    wantedNum (ascii "192.168.122.104") (ascii "192.168.122.104") (ascii "test")
        [exampleConnection] = 1 ∧
      (getConnNum (some (.result [exampleConnection])) (ascii "192.168.122.104")
        (ascii "192.168.122.104") (ascii "test")).toInt = 2 := by
  decide +kernel

end MaxScaleSystemTest.Sql
