import MaxScaleSystemTest.Lib.CString
import MaxScaleSystemTest.Lib.Decimal
import MaxScaleSystemTest.Lib.Runs

namespace MaxScaleSystemTest.CdcClient

open CString Runs

/-!
# The mailbox between `cdc_com` and `query_thread`

`cdc_com` reads what the Avro listener sends and puts the next value into `insert_val`;
`query_thread` waits for a value there, takes it and inserts the row.  A value is put there for
every result of `read_sc`, whatever part of the listener's stream it is.

* `step` — one access of either party to `insert_val`, or one message of the listener;
* `Progress` — how far a value has come on its way into the table;
* `deliversAll_of_stepsMeet` — the runs in which every value arrives.
-/

/-! ### The parties -/

/-- Where `cdc_com` is: in its loop, between the two assignments `insert_val = 10` and
    `inserted_val = insert_val`, or behind the loop. -/
inductive Com where
  | waiting
  | starting
  | left
  deriving DecidableEq

/-- Where `query_thread` is: at the tests of its loop, before it reads `insert_val` for the
    first and for the second number of the statement, before it clears `insert_val`, before it
    executes the statement, or behind the loop. -/
inductive Query where
  | test
  | readX1
  | readFl (x1 : ℤ)
  | clear (x1 fl : ℤ)
  | execute (x1 fl : ℤ)
  | exited
  deriving DecidableEq

/-- What the listener sends: something before the first value is inserted, and a record for
    every row. -/
structure Listener where
  preamble : Bytes
  record : ℤ → ℤ → Bytes

/-- The variables of both threads, the rows that `query_thread` has inserted, how many of them
    the listener has sent, and what of the stream has not been read. -/
structure State where
  com : Com
  ignoreFirst : ℕ
  insertedVal : ℤ
  insertVal : ℤ
  exitFlag : Bool
  query : Query
  rows : List (ℤ × ℤ)
  sent : ℕ
  socket : Bytes
  deriving DecidableEq

/-- Before the loop. -/
def State.start (l : Listener) : State := ⟨.waiting, 2, 0, 0, false, .test, [], 0, l.preamble⟩

/-- `max_inserted_val`: a smoke test inserts fewer values. -/
def maxInsertedVal (smoke : Bool) : ℤ := if smoke then 25 else 100

/-- What the parties do: `cdc_com` reads so many bytes, goes on after the first assignment, or
    leaves its loop; `main` sets the flag; `query_thread` takes its next step; the listener
    sends a record. -/
inductive Action where
  | read (n : ℕ)
  | copy
  | leave
  | exit
  | query
  | send
  deriving DecidableEq

/-- The body of the loop of `cdc_com` once `read_sc` has returned.  The values in the JSON are
    only compared and printed. -/
def gotData (s : State) : State :=
  if s.ignoreFirst > 0 then
    let s := { s with ignoreFirst := s.ignoreFirst - 1 }
    if s.ignoreFirst = 0 then { s with insertVal := 10, com := .starting } else s
  else
    let s := { s with insertedVal := s.insertedVal + 1 }
    { s with insertVal := s.insertedVal }

/-- The next step of `query_thread`; it does nothing while there is no value. -/
def queryThread (s : State) : Option State :=
  match s.query with
  | .test =>
    if s.exitFlag then some { s with query := .exited }
    else if s.insertVal ≠ 0 then some { s with query := .readX1 }
    else none
  | .readX1 => some { s with query := .readFl s.insertVal }
  | .readFl x1 => some { s with query := .clear x1 (s.insertVal + 100) }
  | .clear x1 fl => some { s with insertVal := 0, query := .execute x1 fl }
  | .execute x1 fl => some { s with rows := s.rows ++ [(x1, fl)], query := .test }
  | .exited => none

/-- One step of the system, `none` where it cannot be taken. -/
def step (l : Listener) (max : ℤ) (s : State) : Action → Option State
  | .read n =>
    -- `read_sc` has returned the next `n` bytes of the stream
    if s.com = .waiting ∧ s.insertedVal < max ∧ 0 < n ∧ n ≤ s.socket.length then
      some (gotData { s with socket := s.socket.drop n })
    else none
  | .copy =>
    if s.com = .starting then some { s with insertedVal := s.insertVal, com := .waiting }
    else none
  | .leave =>
    if s.com = .waiting ∧ ¬ s.insertedVal < max then some { s with com := .left } else none
  | .exit => if s.com = .left then some { s with exitFlag := true } else none
  | .query => queryThread s
  | .send =>
    match s.rows[s.sent]? with
    | some (x1, fl) => some { s with sent := s.sent + 1, socket := s.socket ++ l.record x1 fl }
    | none => none

/-! ### What should happen -/

/-- The rows for the values from 10 on and below `w`. -/
def rowsTo (w : ℤ) : List (ℤ × ℤ) :=
  (List.range (w - 10).toNat).map fun i : ℕ => (10 + (i : ℤ), 110 + (i : ℤ))

/-- Of the values from 10 on and below `max`, each has been inserted once, and in order. -/
def InsertedInOrder (max : ℤ) (rows : List (ℤ × ℤ)) : Prop :=
  rows.filter (fun row => 10 ≤ row.1 ∧ row.1 < max) = rowsTo max

instance (max : ℤ) (rows : List (ℤ × ℤ)) : Decidable (InsertedInOrder max rows) :=
  inferInstanceAs (Decidable (_ = _))

/-- After a run, when `cdc_com` has left its loop, all values have been inserted. -/
def DeliversAll (l : Listener) (smoke : Bool) (actions : List Action) : Prop :=
  ∀ s, tryRun (step l (maxInsertedVal smoke)) (.start l) actions = some s →
    s.com = .left → InsertedInOrder (maxInsertedVal smoke) s.rows

/-- The thread does not need `insert_val` any more for the value it is busy with. -/
def Query.hasCleared : Query → Bool
  | .test | .execute _ _ => true
  | _ => false

/-- The thread has read both numbers and is about to clear `insert_val`. -/
def Query.hasRead : Query → Bool
  | .clear _ _ => true
  | _ => false

/-- The thread has read a value below `max` and not inserted it yet. -/
def Query.holdsBelow (max : ℤ) : Query → Bool
  | .clear x1 _ | .execute x1 _ => x1 < max
  | _ => false

/-- The next value is put into an empty mailbox, from which the last one has been taken (the
    value `max` is not needed: it may be cleared along with the last one); `cdc_com` finds the
    value 10 where it has put it; and it leaves its loop when no value below `max` is on its
    way. -/
def Good (max : ℤ) (s : State) : Action → Prop
  | .read _ =>
    s.ignoreFirst = 0 →
      (s.insertVal = 0 ∧ s.query.hasCleared) ∨ (s.insertedVal + 1 = max ∧ s.query.hasRead)
  | .copy => s.insertVal = 10
  | .leave => ¬ s.query.holdsBelow max
  | _ => True

instance (max : ℤ) (s : State) (a : Action) : Decidable (Good max s a) :=
  match a with
  | .read _ => inferInstanceAs (Decidable (_ → _))
  | .copy => inferInstanceAs (Decidable (_ = _))
  | .leave => inferInstanceAs (Decidable (¬ _))
  | .exit | .query | .send => inferInstanceAs (Decidable True)

/-! ### The rows -/

theorem rowsTo_succ {w : ℤ} (h : 10 ≤ w) : rowsTo (w + 1) = rowsTo w ++ [(w, w + 100)] := by
  have hlen : (w + 1 - 10).toNat = (w - 10).toNat + 1 := by omega
  rw [rowsTo, rowsTo, hlen, List.range_succ, List.map_append, List.map_singleton]
  congr 3
  · omega
  · omega

/-- The row for the value before is the last of them. -/
theorem rowsTo_pred {v : ℤ} (h : 10 < v) : rowsTo (v - 1) ++ [(v - 1, v + 99)] = rowsTo v := by
  have hsucc := @rowsTo_succ (v - 1) (by omega)
  rw [show v - 1 + 1 = v by omega, show v - 1 + 100 = v + 99 by omega] at hsucc
  exact hsucc.symm

/-- Rows from `max` on do not count. -/
theorem insertedInOrder_rowsTo {max w : ℤ} (hmax : 10 ≤ max) (hw : max ≤ w) :
    InsertedInOrder max (rowsTo w) := by
  unfold InsertedInOrder
  induction w, hw using Int.leInduction with
  | base =>
    apply List.filter_eq_self.mpr
    intro row hrow
    obtain ⟨i, hi, rfl⟩ := List.mem_map.mp hrow
    have hlt := List.mem_range.mp hi
    simp only [decide_eq_true_eq]
    omega
  | succ w hw ih =>
    rw [rowsTo_succ (hmax.trans hw), List.filter_append, ih]
    have hout : ¬ (10 ≤ w ∧ w < max) := by omega
    simp [hout]

/-! ### The way of a value -/

/-- Where the value `v` is that `cdc_com` has put into the mailbox last, when the rows below
    `w` have been inserted: the contents of `insert_val`, the place of `query_thread`, and
    `w`. -/
inductive Progress (max v : ℤ) : ℤ → Query → ℤ → Prop where
  | fresh : Progress max v v .test v
  | tested : Progress max v v .readX1 v
  | halfRead : Progress max v v (.readFl v) v
  | read : Progress max v v (.clear v (v + 100)) v
  | cleared : Progress max v 0 (.execute v (v + 100)) v
  | inserted : Progress max v 0 .test (v + 1)
  /-- The value before is still on its way. -/
  | behind (h : 10 < v) : Progress max v v (.execute (v - 1) (v + 99)) (v - 1)
  /-- The last value of all is cleared along with the one before, and never inserted. -/
  | lost (h : 10 < v) (hlast : v = max) : Progress max v v (.clear (v - 1) (v + 99)) (v - 1)
  | lostCleared (h : 10 < v) (hlast : v = max) :
      Progress max v 0 (.execute (v - 1) (v + 99)) (v - 1)
  | lostInserted (hlast : v = max) : Progress max v 0 .test v
  | exited (val w : ℤ) (hlast : v = max) (hlow : v ≤ w) (hhigh : w ≤ v + 1) :
      Progress max v val .exited w

/-- At its tests the thread leaves the loop, or finds a value. -/
theorem queryThread_test {s s' : State} (hquery : s.query = .test)
    (hstep : queryThread s = some s') :
    (s.exitFlag = true ∧ s' = { s with query := .exited }) ∨
      (s.insertVal ≠ 0 ∧ s' = { s with query := .readX1 }) := by
  simp only [queryThread, hquery] at hstep
  by_cases hflag : s.exitFlag
  · rw [if_pos hflag] at hstep
    exact .inl ⟨hflag, (Option.some.inj hstep).symm⟩
  · rw [if_neg hflag, Option.ite_none_right_eq_some] at hstep
    exact .inr ⟨hstep.1, (Option.some.inj hstep.2).symm⟩

/-- A step of `query_thread` takes the value further. -/
theorem Progress.queryThread {max v w : ℤ} {s s' : State}
    (h : Progress max v s.insertVal s.query w) (hv : 10 ≤ v) (hrows : s.rows = rowsTo w)
    (hexit : s.exitFlag = true → v = max) (hstep : queryThread s = some s') :
    ∃ w', w ≤ w' ∧ s'.rows = rowsTo w' ∧ Progress max v s'.insertVal s'.query w' := by
  generalize hval : s.insertVal = val at h
  generalize hquery : s.query = query at h
  cases h with
  | fresh =>
    obtain ⟨hflag, rfl⟩ | ⟨-, rfl⟩ := queryThread_test hquery hstep
    · exact ⟨v, le_refl v, hrows, .exited _ v (hexit hflag) (le_refl v) (by omega)⟩
    · rw [hval]
      exact ⟨v, le_refl v, hrows, .tested⟩
  | tested =>
    simp only [CdcClient.queryThread, hquery, hval] at hstep
    cases hstep
    exact ⟨v, le_refl v, hrows, .halfRead⟩
  | halfRead =>
    simp only [CdcClient.queryThread, hquery, hval] at hstep
    cases hstep
    exact ⟨v, le_refl v, hrows, .read⟩
  | read =>
    simp only [CdcClient.queryThread, hquery] at hstep
    cases hstep
    exact ⟨v, le_refl v, hrows, .cleared⟩
  | cleared =>
    -- the row of `v` is inserted
    simp only [CdcClient.queryThread, hquery, hval] at hstep
    cases hstep
    refine ⟨v + 1, by omega, ?_, .inserted⟩
    rw [rowsTo_succ hv, ← hrows]
  | inserted =>
    -- the mailbox is empty, so that the thread can only leave its loop
    obtain ⟨hflag, rfl⟩ | ⟨hne, -⟩ := queryThread_test hquery hstep
    · exact ⟨v + 1, le_refl _, hrows, .exited _ _ (hexit hflag) (by omega) (le_refl _)⟩
    · exact absurd hval hne
  | behind hlow =>
    -- the row before is inserted, and `v` waits in the mailbox
    simp only [CdcClient.queryThread, hquery, hval] at hstep
    cases hstep
    refine ⟨v, by omega, ?_, .fresh⟩
    rw [← rowsTo_pred hlow, ← hrows]
  | lost hlow hlast =>
    simp only [CdcClient.queryThread, hquery] at hstep
    cases hstep
    exact ⟨v - 1, le_refl _, hrows, .lostCleared hlow hlast⟩
  | lostCleared hlow hlast =>
    simp only [CdcClient.queryThread, hquery, hval] at hstep
    cases hstep
    refine ⟨v, by omega, ?_, .lostInserted hlast⟩
    rw [← rowsTo_pred hlow, ← hrows]
  | lostInserted hlast =>
    obtain ⟨-, rfl⟩ | ⟨hne, -⟩ := queryThread_test hquery hstep
    · exact ⟨v, le_refl v, hrows, .exited _ _ hlast (le_refl v) (by omega)⟩
    · exact absurd hval hne
  | exited =>
    simp only [CdcClient.queryThread, hquery] at hstep
    cases hstep

/-- The next value, in an empty mailbox. -/
theorem Progress.advance {max v val w : ℤ} {query : Query} (h : Progress max v val query w)
    (hv : 10 ≤ v) (hlt : v < max)
    (hgood : (val = 0 ∧ query.hasCleared) ∨ (v + 1 = max ∧ query.hasRead)) :
    Progress max (v + 1) (v + 1) query w := by
  have hprevious : v + 1 - 1 = v := by omega
  have hfl : v + 1 + 99 = v + 100 := by omega
  cases h with
  | fresh | tested | halfRead | behind =>
    -- the value is still in the mailbox
    have hne : v ≠ 0 := by omega
    simp [hne, Query.hasRead] at hgood
  | read =>
    -- only the value `max` may be put over a value that has been read
    have hne : v ≠ 0 := by omega
    have hlast : v + 1 = max := by simpa [hne, Query.hasRead] using hgood
    have hlost : Progress max (v + 1) (v + 1) (.clear (v + 1 - 1) (v + 1 + 99)) (v + 1 - 1) :=
      .lost (by omega) hlast
    rwa [hprevious, hfl] at hlost
  | cleared =>
    have hbehind : Progress max (v + 1) (v + 1) (.execute (v + 1 - 1) (v + 1 + 99)) (v + 1 - 1) :=
      .behind (by omega)
    rwa [hprevious, hfl] at hbehind
  | inserted => exact .fresh
  | lost _ hlast | lostCleared _ hlast | lostInserted hlast | exited _ _ hlast =>
    exact absurd hlast (by omega)

/-- When no value below `max` is on its way, all of them are in the table. -/
theorem Progress.le_of_leave {max val w : ℤ} {query : Query} (h : Progress max max val query w)
    (hgood : ¬ query.holdsBelow max) : max ≤ w := by
  have hbelow : decide (max - 1 < max) = true := by simp
  cases h with
  | fresh | tested | halfRead | read | cleared | lostInserted => exact le_refl max
  | inserted => omega
  | behind | lost | lostCleared => exact absurd hbelow hgood
  | exited _ _ _ hlow => exact hlow

/-! ### Runs -/

/-- What holds in every state of a run of good steps. -/
inductive Inv (max : ℤ) (s : State) : Prop where
  | ignoring (hcom : s.com = .waiting) (hexit : s.exitFlag = false) (hfirst : 0 < s.ignoreFirst)
      (hinserted : s.insertedVal = 0) (hval : s.insertVal = 0) (hquery : s.query = .test)
      (hrows : s.rows = [])
  | starting (hcom : s.com = .starting) (hexit : s.exitFlag = false) (hfirst : s.ignoreFirst = 0)
      (w : ℤ) (hrows : s.rows = rowsTo w) (hprogress : Progress max 10 s.insertVal s.query w)
  | running (hcom : s.com = .waiting) (hexit : s.exitFlag = false) (hfirst : s.ignoreFirst = 0)
      (hlow : 10 ≤ s.insertedVal) (hhigh : s.insertedVal ≤ max) (w : ℤ)
      (hrows : s.rows = rowsTo w)
      (hprogress : Progress max s.insertedVal s.insertVal s.query w)
  | left (hcom : s.com = .left) (w : ℤ) (hw : max ≤ w) (hrows : s.rows = rowsTo w)
      (hprogress : Progress max max s.insertVal s.query w)

theorem start_inv (l : Listener) (max : ℤ) : Inv max (.start l) :=
  .ignoring rfl rfl Nat.two_pos rfl rfl rfl rfl

/-- What `query_thread` does not change. -/
structure QueryFrame (s s' : State) : Prop where
  com : s'.com = s.com
  ignoreFirst : s'.ignoreFirst = s.ignoreFirst
  insertedVal : s'.insertedVal = s.insertedVal
  exitFlag : s'.exitFlag = s.exitFlag
  sent : s'.sent = s.sent
  socket : s'.socket = s.socket

theorem queryThread_frame {s s' : State} (h : queryThread s = some s') : QueryFrame s s' := by
  unfold queryThread at h
  split at h
  · split at h
    · cases h
      exact ⟨rfl, rfl, rfl, rfl, rfl, rfl⟩
    · split at h
      · cases h
        exact ⟨rfl, rfl, rfl, rfl, rfl, rfl⟩
      · cases h
  all_goals cases h
  all_goals exact ⟨rfl, rfl, rfl, rfl, rfl, rfl⟩

theorem query_inv {max : ℤ} {s s' : State} (hmax : 10 ≤ max) (h : Inv max s)
    (hstep : queryThread s = some s') : Inv max s' := by
  obtain ⟨hcom', hfirst', hinserted', hexit', -, -⟩ := queryThread_frame hstep
  cases h with
  | ignoring hcom hexit hfirst hinserted hval hquery hrows =>
    -- the mailbox is empty
    simp [queryThread, hquery, hexit, hval] at hstep
  | starting hcom hexit hfirst w hrows hprogress =>
    obtain ⟨w', -, hrows', hprogress'⟩ :=
      hprogress.queryThread (le_refl 10) hrows (by simp [hexit]) hstep
    exact .starting (hcom'.trans hcom) (hexit'.trans hexit) (hfirst'.trans hfirst) w' hrows'
      hprogress'
  | running hcom hexit hfirst hlow hhigh w hrows hprogress =>
    obtain ⟨w', -, hrows', hprogress'⟩ :=
      hprogress.queryThread hlow hrows (by simp [hexit]) hstep
    rw [← hinserted'] at hlow hhigh hprogress'
    exact .running (hcom'.trans hcom) (hexit'.trans hexit) (hfirst'.trans hfirst) hlow hhigh w'
      hrows' hprogress'
  | left hcom w hw hrows hprogress =>
    obtain ⟨w', hle, hrows', hprogress'⟩ :=
      hprogress.queryThread hmax hrows (fun _ => rfl) hstep
    exact .left (hcom'.trans hcom) w' (hw.trans hle) hrows' hprogress'

theorem read_inv {max : ℤ} {s : State} (h : Inv max s) (hwaiting : s.com = .waiting)
    (hlt : s.insertedVal < max)
    (hgood : s.ignoreFirst = 0 →
      (s.insertVal = 0 ∧ s.query.hasCleared) ∨ (s.insertedVal + 1 = max ∧ s.query.hasRead))
    (rest : Bytes) : Inv max (gotData { s with socket := rest }) := by
  unfold gotData
  cases h with
  | ignoring hcom hexit hfirst hinserted hval hquery hrows =>
    rw [if_pos hfirst]
    dsimp only
    by_cases hlast : s.ignoreFirst - 1 = 0
    · -- the first value
      rw [if_pos hlast]
      refine .starting rfl hexit hlast 10 hrows ?_
      rw [hquery]
      exact .fresh
    · rw [if_neg hlast]
      exact .ignoring hcom hexit (Nat.pos_of_ne_zero hlast) hinserted hval hquery hrows
  | running hcom hexit hfirst hlow hhigh w hrows hprogress =>
    rw [if_neg (by rw [hfirst]; exact Nat.lt_irrefl 0)]
    have hnext := hprogress.advance hlow hlt (hgood hfirst)
    exact .running hcom hexit hfirst (Int.le_add_one hlow) hlt w hrows hnext
  | starting hcom => simp [hcom] at hwaiting
  | left hcom => simp [hcom] at hwaiting

/-- **Step.** A good step keeps the invariant. -/
theorem step_inv {l : Listener} {max : ℤ} (hmax : 10 ≤ max) (s : State) (a : Action) (s' : State)
    (h : Inv max s) (hgood : Good max s a) (hstep : step l max s a = some s') : Inv max s' := by
  cases a with
  | read n =>
    obtain ⟨⟨hwaiting, hlt, -, -⟩, hs'⟩ := Option.ite_none_right_eq_some.mp hstep
    cases hs'
    exact read_inv h hwaiting hlt hgood _
  | copy =>
    obtain ⟨hcom, hs'⟩ := Option.ite_none_right_eq_some.mp hstep
    cases hs'
    have hten : s.insertVal = 10 := hgood
    cases h with
    | starting hcom hexit hfirst w hrows hprogress =>
      refine .running rfl hexit hfirst hten.ge (hten.trans_le hmax) w hrows ?_
      rw [hten] at hprogress ⊢
      exact hprogress
    | ignoring hcom' | running hcom' | left hcom' => simp [hcom'] at hcom
  | leave =>
    obtain ⟨⟨hcom, hge⟩, hs'⟩ := Option.ite_none_right_eq_some.mp hstep
    cases hs'
    cases h with
    | ignoring _ _ _ hinserted => exact absurd hmax (by omega)
    | running _ _ _ _ hhigh w hrows hprogress =>
      -- the loop ends at `max`
      have hlast : s.insertedVal = max := le_antisymm hhigh (not_lt.mp hge)
      rw [hlast] at hprogress
      exact .left rfl w (hprogress.le_of_leave hgood) hrows hprogress
    | starting hcom' | left hcom' => simp [hcom'] at hcom
  | exit =>
    obtain ⟨hcom, hs'⟩ := Option.ite_none_right_eq_some.mp hstep
    cases hs'
    cases h with
    | left hcom w hw hrows hprogress => exact .left hcom w hw hrows hprogress
    | ignoring hcom' | running hcom' | starting hcom' => simp [hcom'] at hcom
  | query => exact query_inv hmax h hstep
  | send =>
    -- only what the listener has sent changes
    simp only [step] at hstep
    split at hstep
    · cases hstep
      cases h with
      | ignoring hcom hexit hfirst hinserted hval hquery hrows =>
        exact .ignoring hcom hexit hfirst hinserted hval hquery hrows
      | starting hcom hexit hfirst w hrows hprogress =>
        exact .starting hcom hexit hfirst w hrows hprogress
      | running hcom hexit hfirst hlow hhigh w hrows hprogress =>
        exact .running hcom hexit hfirst hlow hhigh w hrows hprogress
      | left hcom w hw hrows hprogress => exact .left hcom w hw hrows hprogress
    · cases hstep

theorem ten_le_max (smoke : Bool) : 10 ≤ maxInsertedVal smoke := by
  cases smoke <;> decide

/-- **Runs.** In a run whose steps meet their conditions, all values have been inserted, once
    and in order, when `cdc_com` has left its loop. -/
theorem deliversAll_of_stepsMeet (l : Listener) (smoke : Bool) (actions : List Action)
    (h : StepsMeet (step l (maxInsertedVal smoke)) (Good (maxInsertedVal smoke)) (.start l)
      actions) :
    DeliversAll l smoke actions := by
  intro s hrun hleft
  have hmax := ten_le_max smoke
  have hinv := h.invariant (step_inv hmax) (start_inv l _) hrun
  cases hinv with
  | left _ w hw hrows =>
    rw [hrows]
    exact insertedInOrder_rowsTo hmax hw
  | ignoring hcom | starting hcom | running hcom => simp [hcom] at hleft

/-! ### Two runs -/

/-- A listener that has the row of `main` to send at first. -/
def exampleListener : Listener where
  preamble := ascii "\x7b\"x1\": 111, \"fl\": 222\x7d\n"
  record x1 fl :=
    ascii "\x7b\"x1\": " ++ Decimal.ofInt x1 ++
      ascii ", \"fl\": " ++ Decimal.ofInt fl ++ ascii "\x7d\n"

/-- The first value is put into the mailbox after two reads. -/
def firstValue : List Action := [.read 10, .read 13, .copy]

/-- A value goes through `query_thread`, and the listener sends its record. -/
def insertion : List Action := [.query, .query, .query, .query, .query, .send]

/-- Every record is read in one piece. -/
def wholeRecords : List Action :=
  firstValue ++ (List.replicate 15 (insertion ++ [.read 22])).flatten ++ [.leave]

/-- The record of the first value is read in two pieces, the others in one. -/
def splitRecord : List Action :=
  firstValue ++ insertion ++ [.read 5, .read 17] ++
    (List.replicate 13 (insertion ++ [.read 22])).flatten ++ [.leave]

/-- The state after a run of the example. -/
def finalState (actions : List Action) : Option State :=
  tryRun (step exampleListener (maxInsertedVal true)) (.start exampleListener) actions

/-- With whole records `cdc_com` leaves its loop, and all values are there. -/
theorem deliversAll_wholeRecords :
    (∃ s ∈ finalState wholeRecords, s.com = .left) ∧
      DeliversAll exampleListener true wholeRecords :=
  ⟨by decide +kernel, deliversAll_of_stepsMeet _ _ _ (by decide +kernel)⟩

/-- The second piece makes `cdc_com` overwrite the value 11. -/
theorem not_deliversAll_splitRecord : ¬ DeliversAll exampleListener true splitRecord := by
  intro h
  have hlost : ∃ s ∈ finalState splitRecord,
      s.com = .left ∧ ¬ InsertedInOrder (maxInsertedVal true) s.rows := by decide +kernel
  obtain ⟨s, hrun, hleft, hrows⟩ := hlost
  exact hrows (h s hrun hleft)

end MaxScaleSystemTest.CdcClient
