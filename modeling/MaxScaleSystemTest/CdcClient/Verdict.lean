import MaxScaleSystemTest.CdcClient.Mailbox
import MaxScaleSystemTest.Maxinfo.JsonRecord
import MaxScaleSystemTest.Verdict

namespace MaxScaleSystemTest.CdcClient.Verdict

open CString Maxinfo

/-!
# The verdict of `cdc_com`

`cdc_com` ignores what it reads at first, and compares the two integers of every later text with
the values that have been inserted.  When they differ it prints so and goes on.

* `comLoop_of_enough`, `comLoop_of_few` — the loop ends well exactly when there is enough to
  read, whatever it is;
* `cdc_com_verdict_iff` — when success means that the records were right.

The values that are inserted meanwhile are the subject of `Mailbox`.
-/

/-! ### The function -/

/-- The results of the calls before the loop: the text of the address (`none` for NULL),
    `inet_pton`, `connect`, the three calls of `send_so`, and `epoll_ctl`. -/
structure Setup where
  ip : Option Bytes
  pton : ℤ
  connect : ℤ
  sendAuth : ℤ
  sendRegister : ℤ
  sendRequest : ℤ
  epollCtl : ℤ

/-- None of them makes the function return. -/
def Setup.passes (s : Setup) : Bool :=
  if s.ip = none then false
  else if s.pton < 0 then false
  else if s.pton = 0 then false
  else if s.connect < 0 then false
  else if s.sendAuth ≠ 0 then false
  else if s.sendRegister ≠ 0 then false
  else if s.sendRequest ≠ 0 then false
  else if s.epollCtl < 0 then false
  else true

/-- What `epoll_wait` returns: a negative number, 0, or a positive one; in this case with what
    `read_sc` gets. -/
inductive Poll where
  | failed
  | timeout
  | ready (json : Bytes)

/-- The variables of the loop, what has been printed, and the texts that have been examined,
    which the code does not keep. -/
structure ComState where
  insertedVal : ℤ
  ignoreFirst : ℕ
  printed : List Bytes
  examined : List Bytes

/-- What the function meets: the calls before the loop, the results of `epoll_wait` so far,
    whether `query_thread` takes the first value out of `insert_val` before it is copied, and what
    a missing `return` gives and the uninitialised `x1` and `fl` hold. -/
structure Environment where
  setup : Setup
  polls : List Poll
  taken : Bool
  garbage : Int32
  junk : ℤ → Int64 × Int64

/-- What `inserted_val = insert_val` copies. -/
def Environment.firstVal (env : Environment) : ℤ := if env.taken then 0 else 10

section

variable (jsonLoads : Bytes → Except JsonError JsonDocument) (env : Environment)

/-- The body of the loop once `read_sc` has returned. -/
def gotJson (st : ComState) (json : Bytes) : Option ComState :=
  if st.ignoreFirst > 0 then
    if st.ignoreFirst - 1 = 0 then
      some { st with
        insertedVal := env.firstVal, ignoreFirst := 0, printed := st.printed ++ [json] }
    else some { st with ignoreFirst := st.ignoreFirst - 1, printed := st.printed ++ [json] }
  else do
    -- the value returned is not looked at
    let o ← getXFlFromJson jsonLoads env.garbage json (env.junk st.insertedVal).1
      (env.junk st.insertedVal).2
    let received := ascii "data received, x1=" ++ Decimal.ofInt o.x1.toInt ++ ascii " fl=" ++
      Decimal.ofInt o.fl.toInt
    let wrong :=
      if o.x1.toInt ≠ st.insertedVal ∨ o.fl.toInt ≠ st.insertedVal + 100 then
        [ascii "wrong values in JSON"]
      else []
    return { insertedVal := st.insertedVal + 1
             ignoreFirst := 0
             printed := st.printed ++ [json, received] ++ wrong
             examined := st.examined ++ [json] }

/-- The loop, over the results of `epoll_wait`; `none` while it waits for the next one. -/
def comLoop (max : ℤ) : List Poll → ComState → Option (Bool × ComState)
  | [], st => if st.insertedVal < max then none else some (true, st)
  | poll :: polls, st =>
    if st.insertedVal < max then
      let st := { st with printed := st.printed ++ [ascii "epoll_wait"] }
      match poll with
      | .failed => some (false, st)
      | .timeout => comLoop max polls { st with printed := st.printed ++ [ascii "waiting"] }
      | .ready json => (gotJson jsonLoads env st json).bind (comLoop max polls)
    else some (true, st)

/-- `cdc_com`. -/
def cdcCom (smoke : Bool) : Option (Bool × ComState) :=
  let st : ComState := ⟨0, 2, [], []⟩
  if env.setup.passes then comLoop jsonLoads env (maxInsertedVal smoke) env.polls st
  else some (false, st)

end

/-! ### The loop -/

/-- The texts that are read before `epoll_wait` fails. -/
def reads : List Poll → List Bytes
  | [] => []
  | .failed :: _ => []
  | .timeout :: polls => reads polls
  | .ready json :: polls => json :: reads polls

/-- How many texts the loop still has to read. -/
def missing (env : Environment) (max : ℤ) (st : ComState) : ℕ :=
  if st.ignoreFirst = 0 then (max - st.insertedVal).toNat
  else st.ignoreFirst + (max - env.firstVal).toNat

/-- While texts are ignored there is something to be read. -/
def Waiting (max : ℤ) (st : ComState) : Prop := st.ignoreFirst ≠ 0 → st.insertedVal < max

variable {jsonLoads : Bytes → Except JsonError JsonDocument} {env : Environment} {max : ℤ}

theorem missing_eq_zero_iff (env : Environment) {st : ComState} (h : Waiting max st) :
    missing env max st = 0 ↔ ¬ st.insertedVal < max := by
  unfold missing
  split
  · omega
  · rename_i hne
    have hlt := h hne
    omega

theorem lt_of_missing {st : ComState} (h : Waiting max st) {n : ℕ}
    (hmissing : n < missing env max st) : st.insertedVal < max := by
  by_contra hdone
  have hzero := (missing_eq_zero_iff env h).mpr hdone
  omega

/-- **One text.** It is ignored or examined, and there is one less to be read. -/
theorem gotJson_spec (jsonLoads : Bytes → Except JsonError JsonDocument) (env : Environment)
    (st : ComState) (hlt : st.insertedVal < max) (json : Bytes) :
    ∃ st', gotJson jsonLoads env st json = some st' ∧ Waiting max st' ∧
      missing env max st = missing env max st' + 1 ∧ st'.ignoreFirst = st.ignoreFirst - 1 ∧
      st'.examined = st.examined ++ if st.ignoreFirst = 0 then [json] else [] := by
  unfold gotJson
  by_cases hfirst : st.ignoreFirst = 0
  · obtain ⟨o, hread, -, -⟩ := getXFlFromJson_leaves jsonLoads env.garbage json
      (env.junk st.insertedVal).1 (env.junk st.insertedVal).2
    rw [if_neg (by omega), hread]
    refine ⟨_, rfl, fun hne => absurd rfl hne, ?_, by rw [hfirst], by rw [if_pos hfirst]⟩
    simp only [missing, if_pos hfirst, if_true]
    omega
  · rw [if_pos (Nat.pos_of_ne_zero hfirst)]
    by_cases hone : st.ignoreFirst - 1 = 0
    · rw [if_pos hone]
      refine ⟨_, rfl, fun hne => absurd rfl hne, ?_, hone.symm, by simp [hfirst]⟩
      simp only [missing, if_neg hfirst, if_true]
      omega
    · rw [if_neg hone]
      refine ⟨_, rfl, fun _ => hlt, ?_, rfl, by simp [hfirst]⟩
      simp only [missing, if_neg hfirst, if_neg hone]
      omega

/-- **Enough to read.** The loop ends well, and has examined what it did not ignore. -/
theorem comLoop_of_enough (jsonLoads : Bytes → Except JsonError JsonDocument)
    (env : Environment) {polls : List Poll} (st : ComState) (h : Waiting max st)
    (hreads : missing env max st ≤ (reads polls).length) :
    ∃ st', comLoop jsonLoads env max polls st = some (true, st') ∧
      st'.examined = st.examined ++
        ((reads polls).take (missing env max st)).drop st.ignoreFirst := by
  induction polls generalizing st with
  | nil =>
    have hzero : missing env max st = 0 := Nat.le_zero.mp hreads
    have hdone := (missing_eq_zero_iff env h).mp hzero
    refine ⟨st, if_neg hdone, by simp [reads]⟩
  | cons poll polls ih =>
    by_cases hlt : st.insertedVal < max
    · have hmore : missing env max st ≠ 0 := fun hzero => (missing_eq_zero_iff env h).mp hzero hlt
      cases poll with
      | failed => exact absurd (Nat.le_zero.mp hreads) hmore
      | timeout =>
        rw [comLoop, if_pos hlt]
        exact ih { st with printed := _ } h hreads
      | ready json =>
        obtain ⟨st₁, hgot, hwaiting, hmissing, hfirst, hexamined⟩ := gotJson_spec jsonLoads env
          { st with printed := st.printed ++ [ascii "epoll_wait"] } hlt json
        have hmissing : missing env max st = missing env max st₁ + 1 := hmissing
        have hlen : missing env max st₁ ≤ (reads polls).length := by
          simp only [reads, List.length_cons] at hreads
          omega
        obtain ⟨st', hrun, hall⟩ := ih st₁ hwaiting hlen
        refine ⟨st', ?_, ?_⟩
        · rw [comLoop, if_pos hlt]
          show (gotJson jsonLoads env _ json).bind _ = _
          rw [hgot, Option.bind_some]
          exact hrun
        · rw [hall, hexamined, reads, hmissing, List.take_succ_cons, hfirst]
          cases hignored : st.ignoreFirst with
          | zero => simp
          | succ n => simp
    · have hzero := (missing_eq_zero_iff env h).mpr hlt
      exact ⟨st, if_neg hlt, by simp [hzero]⟩

/-- **Too little to read.** The loop does not end well. -/
theorem comLoop_of_few {polls : List Poll} (st : ComState) (h : Waiting max st)
    (hreads : (reads polls).length < missing env max st) (st' : ComState) :
    comLoop jsonLoads env max polls st ≠ some (true, st') := by
  induction polls generalizing st with
  | nil =>
    rw [comLoop, if_pos (lt_of_missing h hreads)]
    exact nofun
  | cons poll polls ih =>
    have hlt : st.insertedVal < max := lt_of_missing h hreads
    rw [comLoop, if_pos hlt]
    cases poll with
    | failed => exact nofun
    | timeout => exact ih { st with printed := _ } h hreads
    | ready json =>
      obtain ⟨st₁, hgot, hwaiting, hmissing, -⟩ := gotJson_spec jsonLoads env
        { st with printed := st.printed ++ [ascii "epoll_wait"] } hlt json
      have hmissing : missing env max st = missing env max st₁ + 1 := hmissing
      have hlen : (reads polls).length < missing env max st₁ := by
        simp only [reads, List.length_cons] at hreads
        omega
      show (gotJson jsonLoads env _ json).bind _ ≠ _
      rw [hgot, Option.bind_some]
      exact ih st₁ hwaiting hlen

/-! ### The verdict -/

/-- A text is the record of the pair `(k, k + 100)`. -/
def HasPair (jsonLoads : Bytes → Except JsonError JsonDocument) (json : Bytes) (k : ℤ) : Prop :=
  ∃ x f, lineRow jsonLoads json = some (x, f) ∧ x.toInt = k ∧ f.toInt = k + 100

/-- Success means that the texts that were examined are the records of the pairs from `(10, 110)`
    on. -/
def VerdictRight (jsonLoads : Bytes → Except JsonError JsonDocument) (smoke : Bool)
    (env : Environment) : Prop :=
  ∀ st, cdcCom jsonLoads env smoke = some (true, st) →
    ∀ (i : ℕ) (json : Bytes), st.examined[i]? = some json → HasPair jsonLoads json (10 + i)

/-- The number of texts that are examined. -/
def examinedCount (smoke : Bool) (env : Environment) : ℕ :=
  (maxInsertedVal smoke - env.firstVal).toNat

/-- The calls before the loop go well, and there is enough to read before `epoll_wait` fails. -/
structure Completes (smoke : Bool) (env : Environment) : Prop where
  setup : env.setup.passes = true
  enough : 2 + examinedCount smoke env ≤ (reads env.polls).length

/-- **The verdict.** Success means that the records were right exactly when there is no success,
    as a call fails or too little is sent, or the records happen to be right. -/
theorem cdc_com_verdict_iff (jsonLoads : Bytes → Except JsonError JsonDocument) (smoke : Bool)
    (env : Environment) :
    VerdictRight jsonLoads smoke env ↔ ¬ Completes smoke env ∨
      ∀ (i : ℕ) (json : Bytes), i < examinedCount smoke env →
        (reads env.polls)[2 + i]? = some json → HasPair jsonLoads json (10 + i) := by
  have hwaiting : Waiting (maxInsertedVal smoke) ⟨0, 2, [], []⟩ := by
    intro _
    cases smoke <;> decide
  have hmissing : missing env (maxInsertedVal smoke) ⟨0, 2, [], []⟩ = 2 + examinedCount smoke env :=
    rfl
  have hexamined : ∀ i : ℕ, (((reads env.polls).take (2 + examinedCount smoke env)).drop 2)[i]?
      = if i < examinedCount smoke env then (reads env.polls)[2 + i]? else none := by
    intro i
    rw [List.getElem?_drop, List.getElem?_take]
    by_cases hi : i < examinedCount smoke env
    · rw [if_pos hi, if_pos (by omega)]
    · rw [if_neg hi, if_neg (by omega)]
  unfold VerdictRight cdcCom
  constructor
  · intro h
    by_cases hcompletes : Completes smoke env
    · obtain ⟨st, hrun, hall⟩ := comLoop_of_enough jsonLoads env _ hwaiting
        hcompletes.enough
      rw [if_pos hcompletes.setup] at h
      refine .inr fun i json hi hjson => h st hrun i json ?_
      rw [hall, hmissing, List.nil_append, hexamined, if_pos hi]
      exact hjson
    · exact .inl hcompletes
  · intro h st hrun i json hjson
    by_cases hsetup : env.setup.passes = true
    · rw [if_pos hsetup] at hrun
      have henough : 2 + examinedCount smoke env ≤ (reads env.polls).length := by
        by_contra hfew
        exact comLoop_of_few _ hwaiting (Nat.lt_of_not_le hfew) st hrun
      obtain ⟨st', hrun', hall⟩ := comLoop_of_enough jsonLoads env _ hwaiting henough
      rw [hrun] at hrun'
      cases hrun'
      rw [hall, hmissing, List.nil_append, hexamined] at hjson
      split at hjson
      · rename_i hi
        obtain hfails | hright := h
        · exact absurd ⟨hsetup, henough⟩ hfails
        · exact hright i json hi hjson
      · cases hjson
    · rw [if_neg hsetup] at hrun
      cases hrun

/-- All calls go well, and every text that is read is the record of the pair `(1, 2)`. -/
def repeatedRecord : Environment where
  setup := ⟨some (ascii "192.168.122.105"), 1, 0, 0, 0, 0, 0⟩
  polls := List.replicate 17 (.ready rowLine)
  taken := false
  garbage := 0
  junk := fun _ => (0, 0)

/-- The verdict is success. -/
theorem repeated_record_passes : ¬ VerdictRight rowLoads true repeatedRecord := by
  rw [cdc_com_verdict_iff]
  rintro (hfails | hright)
  · exact hfails ⟨rfl, by decide⟩
  · obtain ⟨x, f, hrow, hx, -⟩ := hright 0 rowLine (by decide) rfl
    rw [lineRow, rowLoads_rowLine] at hrow
    cases rowDocument_row.symm.trans hrow
    exact absurd hx (by decide)

end MaxScaleSystemTest.CdcClient.Verdict
