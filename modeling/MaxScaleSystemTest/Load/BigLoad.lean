import Mathlib.Algebra.BigOperators.Group.Finset.Basic
import MaxScaleSystemTest.Lib.Handles

namespace MaxScaleSystemTest.Load.BigLoad

open Handles Runs

/-!
# The load on the routers

`load` runs two groups of threads with one `thread_data` between them.  Each thread opens its
connections, executes a SELECT on each of them until `exit_flag` is set, and closes them; a thread
of the first group goes without a query, and without closing anything, when a connection has an
error.  Without memory for it a connection is null, which `mysql_errno`, `execute_query_silent` and
`mysql_close` are given like any other.  The SELECTs on the first connection that succeed are
counted with an atomic addition.

* `Place`, `threadStep` — one statement of `query_thread1` or `query_thread2`;
* `mainStep` — the flag, and the joining of the threads;
* `Inv`, `inv_step` — what every step keeps;
* `load_counts` — the counters, and what is left open, when all threads are joined.
-/

/-- The connections of a thread. -/
inductive Conn where
  | conn1
  | conn2
  | conn3
  deriving DecidableEq

/-- `query_thread1` or `query_thread2`. -/
inductive Group where
  | first
  | second
  deriving DecidableEq

structure Thread where
  group : Group
  index : ℕ
  deriving DecidableEq

/-- A local variable for a connection. -/
structure Local where
  thread : Thread
  conn : Conn
  deriving DecidableEq

/-- What `load` is called with. -/
structure Setup where
  threadsNum : ℕ
  rwsplitOnly : Bool

/-- Where a thread stands. -/
inductive Place where
  | connect (c : Conn)
  | ifErrors
  | test
  | query (c : Conn)
  | add
  | close (c : Conn)
  | ended
  deriving DecidableEq

/-- Where `load` stands. -/
inductive MainPlace where
  | sleep
  | join (t : Thread)
  | done
  deriving DecidableEq

/-- The `thread_data` (`i .first` is `i1`, `i .second` is `i2`), the threads with their
    connections, and, which the code does not keep, the connections that the threads have been
    given, how many SELECTs have succeeded on the first connection of a thread and how many of
    them it has counted. -/
structure World where
  slots : Slots Local
  made : Local → Option ℕ
  exitFlag : Bool
  i : Group → ℕ
  place : Thread → Place
  connErr : Thread → ℕ
  selected : Thread → ℕ
  added : Thread → ℕ
  main : MainPlace

/-- The threads have been created. -/
def created : World where
  slots := Slots.empty Local
  made := fun _ => none
  exitFlag := false
  i := fun _ => 0
  place := fun _ => .connect .conn1
  connErr := fun _ => 0
  selected := fun _ => 0
  added := fun _ => 0
  main := .sleep

/-- What a thread is answered in one step: whether `mysql_init` has memory for a connection,
    whether `mysql_errno` tells of an error, and whether the query succeeds. -/
structure Reply where
  granted : Bool
  errno : Bool
  succeeds : Bool

/-- Where a thread goes when it has its connections. -/
def Group.connected : Group → Place
  | .first => .ifErrors
  | .second => .test

/-- The connection that follows, if `rwsplit_only` lets it. -/
def Setup.next (s : Setup) : Conn → Option Conn
  | .conn1 => if s.rwsplitOnly then none else some .conn2
  | .conn2 => some .conn3
  | .conn3 => none

/-- Thread `t` goes on at another place. -/
def World.goto (w : World) (t : Thread) (place : Place) : World :=
  { w with place := Function.update w.place t place }

/-- A thread opens a connection, which is null without memory for it; one of the first group looks
    at its error. -/
def World.opened (w : World) (t : Thread) (c : Conn) (reply : Reply) : World :=
  let slots := w.slots.openAt ⟨t, c⟩ reply.granted
  let w : World := { w with slots, made := Function.update w.made ⟨t, c⟩ (slots.slot ⟨t, c⟩) }
  match t.group with
  | .first =>
    { w with
      slots := w.slots.useAt ⟨t, c⟩
      connErr := Function.update w.connErr t (w.connErr t + if reply.errno then 1 else 0) }
  | .second => w

/-- One statement of a thread. -/
def threadStep (s : Setup) (w : World) (t : Thread) (reply : Reply) : World :=
  match w.place t with
  | .connect c =>
    (w.opened t c reply).goto t (((s.next c).map Place.connect).getD t.group.connected)
  | .ifErrors => w.goto t (if w.connErr t = 0 then .test else .ended)
  | .test => w.goto t (if w.exitFlag then .close .conn1 else .query .conn1)
  | .query c =>
    -- `execute_query_silent` fails without a connection
    let succeeds := (w.slots.slot ⟨t, c⟩).isSome && reply.succeeds
    let w : World := { w with slots := w.slots.useAt ⟨t, c⟩ }
    if c = .conn1 ∧ succeeds then
      { w with selected := Function.update w.selected t (w.selected t + 1) }.goto t .add
    else w.goto t (((s.next c).map Place.query).getD .test)
  | .add =>
    { w with
      i := Function.update w.i t.group (w.i t.group + 1)
      added := Function.update w.added t (w.added t + 1) }.goto t
        (((s.next .conn1).map Place.query).getD .test)
  | .close c =>
    { w with slots := w.slots.closeAt ⟨t, c⟩ }.goto t (((s.next c).map Place.close).getD .ended)
  | .ended => w

/-- The thread that is joined after another one. -/
def Thread.joinNext (t : Thread) : Thread :=
  match t.group with
  | .first => ⟨.second, t.index⟩
  | .second => ⟨.first, t.index + 1⟩

/-- One statement of `load`; a thread that has not ended is waited for. -/
def mainStep (s : Setup) (w : World) : World :=
  match w.main with
  | .sleep => { w with exitFlag := true, main := .join ⟨.first, 0⟩ }
  | .join t =>
    if t.index < s.threadsNum then
      if w.place t = .ended then { w with main := .join t.joinNext } else w
    else { w with main := .done }
  | .done => w

/-- Whose turn it is. -/
inductive Turn where
  | main
  | thread (t : Thread) (reply : Reply)

/-- One statement of `load` or of one of its threads. -/
def step (s : Setup) (w : World) : Turn → World
  | .main => mainStep s w
  | .thread t reply => if t.index < s.threadsNum then threadStep s w t reply else w

/-! ### What is open -/

/-- The connections of a thread in their order. -/
def Conn.num : Conn → ℕ
  | .conn1 => 0
  | .conn2 => 1
  | .conn3 => 2

/-- The connections that the threads open. -/
def Setup.conns (s : Setup) : Finset Conn :=
  if s.rwsplitOnly then {.conn1} else {.conn1, .conn2, .conn3}

/-- Which connections a thread has open at a place. -/
def isOpen (place : Place) (connErr : ℕ) (c : Conn) : Prop :=
  match place with
  | .connect d => c.num < d.num
  | .close d => d.num ≤ c.num
  | .ended => connErr ≠ 0
  | _ => True

/-- An error has been counted only in the first group, and is looked at before the first query. -/
def ErrorsOk (group : Group) (connErr : ℕ) : Place → Prop
  | .connect _ => group = .second → connErr = 0
  | .ifErrors => group = .first
  | .ended => group = .second → connErr = 0
  | _ => connErr = 0

/-- The places of a thread are those of its connections. -/
def PlaceOk (s : Setup) : Place → Prop
  | .connect c => c ∈ s.conns
  | .query c => c ∈ s.conns
  | .close c => c ∈ s.conns
  | _ => True

/-- What holds of a thread. -/
structure ThreadOk (s : Setup) (w : World) (t : Thread) : Prop where
  place : PlaceOk s (w.place t)
  errors : ErrorsOk t.group (w.connErr t) (w.place t)
  held : ∀ c ∈ s.conns, isOpen (w.place t) (w.connErr t) c → w.slots.slot ⟨t, c⟩ = w.made ⟨t, c⟩
  null : ∀ c, ¬ (c ∈ s.conns ∧ isOpen (w.place t) (w.connErr t) c) → w.slots.slot ⟨t, c⟩ = none
  unmade : ∀ c ∉ s.conns, w.made ⟨t, c⟩ = none
  counted : w.selected t = w.added t + if w.place t = .add then 1 else 0

/-- The threads that have been joined. -/
def Joined (s : Setup) (main : MainPlace) (t : Thread) : Prop :=
  match main with
  | .sleep => False
  | .join u => t.index < u.index ∨ t.index = u.index ∧ t.group = .first ∧ u.group = .second
  | .done => t.index < s.threadsNum

/-- The invariant. -/
structure Inv (s : Setup) (w : World) : Prop where
  accounts : Accounts w.slots ∅
  thread : ∀ t, ThreadOk s w t
  idle : ∀ t : Thread, s.threadsNum ≤ t.index → w.place t = .connect .conn1
  sum : ∀ group, w.i group = ∑ k ∈ Finset.range s.threadsNum, w.added ⟨group, k⟩
  joined : ∀ t, Joined s w.main t → w.place t = .ended

theorem inv_created (s : Setup) : Inv s created where
  accounts := accounts_empty
  thread := fun t => {
    place := by
      show Conn.conn1 ∈ s.conns
      rw [Setup.conns]
      split <;> simp
    errors := fun _ => rfl
    held := fun _ _ _ => rfl
    null := fun _ _ => rfl
    unmade := fun _ _ => rfl
    counted := rfl }
  idle := fun _ _ => rfl
  sum := fun _ => Finset.sum_const_zero.symm
  joined := fun _ h => h.elim

/-! ### The order of the connections -/

section Conns

variable {s : Setup} {c d : Conn}

theorem conn_num_inj (h : c.num = d.num) : c = d := by
  cases c <;> cases d <;> first | rfl | cases h

theorem conn1_mem (s : Setup) : Conn.conn1 ∈ s.conns := by
  rw [Setup.conns]
  split <;> simp

theorem next_mem (hc : c ∈ s.conns) (h : s.next c = some d) :
    d ∈ s.conns ∧ d.num = c.num + 1 := by
  cases hs : s.rwsplitOnly <;> cases c <;> simp_all [Setup.next, Setup.conns] <;> subst h <;>
    simp [Conn.num]

theorem le_of_next_none (hc : c ∈ s.conns) (h : s.next c = none) (hd : d ∈ s.conns) :
    d.num ≤ c.num := by
  cases hs : s.rwsplitOnly <;> cases c <;> cases d <;>
    simp_all [Setup.next, Setup.conns, Conn.num]

end Conns

/-! ### One step -/

/-- A step of thread `t` changes nothing of the others. -/
structure OnlyOf (t : Thread) (w w' : World) : Prop where
  slots : ∀ l : Local, l.thread ≠ t → w'.slots.slot l = w.slots.slot l
  made : ∀ l : Local, l.thread ≠ t → w'.made l = w.made l
  place : ∀ u ≠ t, w'.place u = w.place u
  connErr : ∀ u ≠ t, w'.connErr u = w.connErr u
  selected : ∀ u ≠ t, w'.selected u = w.selected u
  added : ∀ u ≠ t, w'.added u = w.added u
  main : w'.main = w.main
  sum : ∃ k, w'.added t = w.added t + k ∧
    ∀ group, w'.i group = w.i group + if group = t.group then k else 0

/-- The sum over the threads of a group when one thread adds to its part. -/
theorem sum_onlyOf {n : ℕ} {t : Thread} (ht : t.index < n) {added added' : Thread → ℕ}
    (hother : ∀ u ≠ t, added' u = added u) {k : ℕ} (hk : added' t = added t + k) (group : Group) :
    ∑ j ∈ Finset.range n, added' ⟨group, j⟩ =
      ∑ j ∈ Finset.range n, added ⟨group, j⟩ + if group = t.group then k else 0 := by
  by_cases hgroup : group = t.group
  · have hmem : t.index ∈ Finset.range n := Finset.mem_range.mpr ht
    have hrest : ∑ j ∈ (Finset.range n).erase t.index, added' ⟨group, j⟩ =
        ∑ j ∈ (Finset.range n).erase t.index, added ⟨group, j⟩ := by
      refine Finset.sum_congr rfl fun j hj => hother _ ?_
      rintro rfl
      exact Finset.notMem_erase j _ hj
    rw [if_pos hgroup, ← Finset.add_sum_erase _ _ hmem, ← Finset.add_sum_erase _ _ hmem, hrest]
    have hself : (⟨group, t.index⟩ : Thread) = t := by rw [hgroup]
    rw [hself, hk]
    omega
  · rw [if_neg hgroup, Nat.add_zero]
    refine Finset.sum_congr rfl fun j _ => hother _ ?_
    rintro rfl
    exact hgroup rfl

/-- What a step of thread `t` has to give for the invariant to hold after it. -/
theorem Inv.threadGoto {s : Setup} {w w' : World} (h : Inv s w) {t : Thread}
    (ht : t.index < s.threadsNum) (hrunning : w.place t ≠ .ended) (haccounts : Accounts w'.slots ∅)
    (honly : OnlyOf t w w') (hthread : ThreadOk s w' t) : Inv s w' := by
  refine ⟨haccounts, fun u => ?_, fun u hu => ?_, fun group => ?_, fun u hu => ?_⟩
  · by_cases hut : u = t
    · rw [hut]
      exact hthread
    · have hold := h.thread u
      refine ⟨?_, ?_, fun c => ?_, fun c => ?_, fun c => ?_, ?_⟩
      · rw [honly.place u hut]
        exact hold.place
      · rw [honly.place u hut, honly.connErr u hut]
        exact hold.errors
      · rw [honly.place u hut, honly.connErr u hut, honly.slots ⟨u, c⟩ hut, honly.made ⟨u, c⟩ hut]
        exact hold.held c
      · rw [honly.place u hut, honly.connErr u hut, honly.slots ⟨u, c⟩ hut]
        exact hold.null c
      · rw [honly.made ⟨u, c⟩ hut]
        exact hold.unmade c
      · rw [honly.selected u hut, honly.added u hut, honly.place u hut]
        exact hold.counted
  · have hut : u ≠ t := by
      rintro rfl
      exact Nat.not_le_of_lt ht hu
    rw [honly.place u hut]
    exact h.idle u hu
  · obtain ⟨k, hk, hi⟩ := honly.sum
    rw [hi group, h.sum group, sum_onlyOf ht honly.added hk group]
  · rw [honly.main] at hu
    have hended := h.joined u hu
    have hut : u ≠ t := by
      rintro rfl
      exact hrunning hended
    rw [honly.place u hut]
    exact hended

/-- A thread that goes on, and has neither counted nor seen an error. -/
theorem onlyOf_goto {w : World} {t : Thread} {slots : Slots Local}
    (hslots : ∀ l : Local, l.thread ≠ t → slots.slot l = w.slots.slot l) (place : Place) :
    OnlyOf t w ({ w with slots := slots }.goto t place) where
  slots := hslots
  made := fun _ _ => rfl
  place := fun _ hu => Function.update_of_ne hu _ _
  connErr := fun _ _ => rfl
  selected := fun _ _ => rfl
  added := fun _ _ => rfl
  main := rfl
  sum := ⟨0, rfl, fun _ => by simp [World.goto]⟩

/-! ### The statements of a thread -/

section Opened

variable (w : World) (t : Thread) (c : Conn) (reply : Reply)

theorem opened_slot :
    (w.opened t c reply).slots.slot =
      Function.update w.slots.slot ⟨t, c⟩ (if reply.granted then some w.slots.next else none) := by
  unfold World.opened
  cases t.group with
  | first => exact (Slots.useAt_slot _ _).trans (Slots.openAt_slot _ _ _)
  | second => exact Slots.openAt_slot _ _ _

theorem opened_made :
    (w.opened t c reply).made =
      Function.update w.made ⟨t, c⟩ (if reply.granted then some w.slots.next else none) := by
  have hgiven : (w.slots.openAt ⟨t, c⟩ reply.granted).slot ⟨t, c⟩ =
      if reply.granted then some w.slots.next else none := by
    rw [Slots.openAt_slot, Function.update_self]
  rw [← hgiven]
  unfold World.opened
  cases t.group <;> rfl

variable {w} in
theorem opened_accounts (h : Accounts w.slots ∅) (hnull : w.slots.slot ⟨t, c⟩ = none) :
    Accounts (w.opened t c reply).slots ∅ := by
  unfold World.opened
  cases t.group with
  | first => exact (h.openAt_of_null hnull reply.granted).useAt _
  | second => exact h.openAt_of_null hnull reply.granted

theorem opened_connErr_of_second (h : t.group = .second) :
    (w.opened t c reply).connErr t = w.connErr t := by
  simp [World.opened, h]

theorem onlyOf_opened (place : Place) : OnlyOf t w ((w.opened t c reply).goto t place) := by
  have hne : ∀ l : Local, l.thread ≠ t → l ≠ ⟨t, c⟩ := by
    rintro l hl rfl
    exact hl rfl
  have hslots : ∀ l : Local, l.thread ≠ t → (w.opened t c reply).slots.slot l = w.slots.slot l :=
    fun l hl => by rw [opened_slot, Function.update_of_ne (hne l hl)]
  have hmade : ∀ l : Local, l.thread ≠ t → (w.opened t c reply).made l = w.made l :=
    fun l hl => by rw [opened_made, Function.update_of_ne (hne l hl)]
  have hplace : ∀ u ≠ t, Function.update (w.opened t c reply).place t place u = w.place u := by
    intro u hu
    rw [Function.update_of_ne hu]
    unfold World.opened
    cases t.group <;> rfl
  refine ⟨hslots, hmade, hplace, fun u hu => ?_, ?_, ?_, ?_, 0, ?_, ?_⟩
  all_goals simp only [World.goto, World.opened]
  · cases t.group with
    | first => exact Function.update_of_ne hu _ _
    | second => rfl
  all_goals cases t.group <;> simp

end Opened

/-- What has to hold of a thread whose place is known. -/
theorem threadOk_at {s : Setup} {w : World} {t : Thread} {place : Place} (hat : w.place t = place)
    (hplace : PlaceOk s place) (herrors : ErrorsOk t.group (w.connErr t) place)
    (hheld : ∀ c ∈ s.conns, isOpen place (w.connErr t) c → w.slots.slot ⟨t, c⟩ = w.made ⟨t, c⟩)
    (hnull : ∀ c, ¬ (c ∈ s.conns ∧ isOpen place (w.connErr t) c) → w.slots.slot ⟨t, c⟩ = none)
    (hunmade : ∀ c ∉ s.conns, w.made ⟨t, c⟩ = none)
    (hcounted : w.selected t = w.added t + if place = .add then 1 else 0) : ThreadOk s w t := by
  subst hat
  exact ⟨hplace, herrors, hheld, hnull, hunmade, hcounted⟩

/-- A new connection. -/
theorem threadOk_connect {s : Setup} {w : World} {t : Thread} {c : Conn} (h : ThreadOk s w t)
    (hplace : w.place t = .connect c) (reply : Reply) :
    ThreadOk s ((w.opened t c reply).goto t
      (((s.next c).map Place.connect).getD t.group.connected)) t := by
  obtain ⟨hmem, herrors, hheld, hnull, hunmade, hcounted⟩ := h
  rw [hplace] at hmem herrors hheld hnull hcounted
  have hat : ((w.opened t c reply).goto t
      (((s.next c).map Place.connect).getD t.group.connected)).place t =
      ((s.next c).map Place.connect).getD t.group.connected := Function.update_self _ _ _
  have hsame : ∀ d ∈ s.conns, d.num ≤ c.num →
      (w.opened t c reply).slots.slot ⟨t, d⟩ = (w.opened t c reply).made ⟨t, d⟩ := by
    intro d hd hle
    rw [opened_slot, opened_made]
    by_cases hdc : d = c
    · rw [hdc, Function.update_self, Function.update_self]
    · rw [Function.update_of_ne (by simpa using hdc), Function.update_of_ne (by simpa using hdc)]
      exact hheld d hd (Nat.lt_of_le_of_ne hle fun heq => hdc (conn_num_inj heq))
  have hnone : ∀ d, ¬ (d ∈ s.conns ∧ d.num ≤ c.num) →
      (w.opened t c reply).slots.slot ⟨t, d⟩ = none := by
    intro d hnot
    have hdc : d ≠ c := by
      rintro rfl
      exact hnot ⟨hmem, le_rfl⟩
    rw [opened_slot, Function.update_of_ne (by simpa using hdc)]
    exact hnull d fun hboth => hnot ⟨hboth.1, Nat.le_of_lt hboth.2⟩
  have hrest : ∀ d ∉ s.conns, (w.opened t c reply).made ⟨t, d⟩ = none := by
    intro d hd
    have hdc : d ≠ c := by
      rintro rfl
      exact hd hmem
    rw [opened_made, Function.update_of_ne (by simpa using hdc)]
    exact hunmade d hd
  have hzero : t.group = .second → (w.opened t c reply).connErr t = 0 :=
    fun hsecond => (opened_connErr_of_second w t c reply hsecond).trans (herrors hsecond)
  have hcount : (w.opened t c reply).selected t = (w.opened t c reply).added t := by
    have hbefore : w.selected t = w.added t := hcounted
    unfold World.opened
    cases t.group <;> exact hbefore
  cases hnext : s.next c with
  | some d =>
    rw [hnext] at hat
    obtain ⟨hd, hnum⟩ := next_mem hmem hnext
    have hopen : ∀ e : Conn, e.num < d.num ↔ e.num ≤ c.num := by
      intro e
      rw [hnum]
      exact Nat.lt_succ_iff
    exact threadOk_at hat hd hzero (fun e he hlt => hsame e he ((hopen e).mp hlt))
      (fun e hnot => hnone e fun hboth => hnot ⟨hboth.1, (hopen e).mpr hboth.2⟩) hrest hcount
  | none =>
    rw [hnext] at hat
    have hall : ∀ e ∈ s.conns, (w.opened t c reply).slots.slot ⟨t, e⟩ =
        (w.opened t c reply).made ⟨t, e⟩ :=
      fun e he => hsame e he (le_of_next_none hmem hnext he)
    have hnever : ∀ e, ¬ (e ∈ s.conns ∧ True) →
        (w.opened t c reply).slots.slot ⟨t, e⟩ = none :=
      fun e hnot => hnone e fun hboth => hnot ⟨hboth.1, trivial⟩
    cases hgroup : t.group with
    | first =>
      rw [hgroup] at hat
      exact threadOk_at hat trivial hgroup (fun e he _ => hall e he) hnever hrest hcount
    | second =>
      rw [hgroup] at hat
      exact threadOk_at hat trivial (hzero hgroup) (fun e he _ => hall e he) hnever hrest hcount

/-- A connection that is closed. -/
theorem threadOk_close {s : Setup} {w : World} {t : Thread} {c : Conn} (h : ThreadOk s w t)
    (hplace : w.place t = .close c) :
    ThreadOk s ({ w with slots := w.slots.closeAt ⟨t, c⟩ }.goto t
      (((s.next c).map Place.close).getD .ended)) t := by
  obtain ⟨hmem, herrors, hheld, hnull, hunmade, hcounted⟩ := h
  rw [hplace] at hmem herrors hheld hnull hcounted
  have hzero : w.connErr t = 0 := herrors
  have hat : ({ w with slots := w.slots.closeAt ⟨t, c⟩ }.goto t
      (((s.next c).map Place.close).getD .ended)).place t =
      ((s.next c).map Place.close).getD .ended := Function.update_self _ _ _
  have hsame : ∀ d ∈ s.conns, c.num < d.num →
      (w.slots.closeAt ⟨t, c⟩).slot ⟨t, d⟩ = w.made ⟨t, d⟩ := by
    intro d hd hlt
    have hdc : d ≠ c := by
      rintro rfl
      exact lt_irrefl _ hlt
    rw [Slots.closeAt_slot, Function.update_of_ne (by simpa using hdc)]
    exact hheld d hd (Nat.le_of_lt hlt)
  have hnone : ∀ d, ¬ (d ∈ s.conns ∧ c.num < d.num) →
      (w.slots.closeAt ⟨t, c⟩).slot ⟨t, d⟩ = none := by
    intro d hnot
    rw [Slots.closeAt_slot]
    by_cases hdc : d = c
    · rw [hdc, Function.update_self]
    · rw [Function.update_of_ne (by simpa using hdc)]
      refine hnull d fun hboth => hnot ⟨hboth.1, ?_⟩
      exact Nat.lt_of_le_of_ne hboth.2 fun heq => hdc (conn_num_inj heq.symm)
  cases hnext : s.next c with
  | some d =>
    rw [hnext] at hat
    obtain ⟨hd, hnum⟩ := next_mem hmem hnext
    have hopen : ∀ e : Conn, d.num ≤ e.num ↔ c.num < e.num := by
      intro e
      rw [hnum]
      exact Nat.succ_le_iff
    exact threadOk_at hat hd hzero (fun e he hle => hsame e he ((hopen e).mp hle))
      (fun e hnot => hnone e fun hboth => hnot ⟨hboth.1, (hopen e).mpr hboth.2⟩) hunmade hcounted
  | none =>
    rw [hnext] at hat
    refine threadOk_at hat trivial (fun _ => hzero) (fun e _ hne => absurd hzero hne)
      (fun e _ => hnone e fun hboth => ?_) hunmade hcounted
    exact Nat.not_lt_of_le (le_of_next_none hmem hnext hboth.1) hboth.2

/-- A place of a thread with all its connections. -/
theorem threadOk_goto {s : Setup} {w w' : World} {t : Thread} {place : Place} (h : ThreadOk s w t)
    (hopen : ∀ c, isOpen (w.place t) (w.connErr t) c) (hat : w'.place t = place)
    (hconnErr : w'.connErr t = w.connErr t) (hslots : w'.slots.slot = w.slots.slot)
    (hmade : w'.made = w.made)
    (hplace : PlaceOk s place) (herrors : ErrorsOk t.group (w.connErr t) place)
    (hopen' : ∀ c, isOpen place (w.connErr t) c)
    (hcounted : w'.selected t = w'.added t + if place = .add then 1 else 0) : ThreadOk s w' t := by
  refine threadOk_at hat hplace (hconnErr ▸ herrors) (fun c hc _ => ?_) (fun c hnot => ?_)
    (hmade ▸ h.unmade) hcounted
  · rw [hslots, hmade]
    exact h.held c hc (hopen c)
  · rw [hslots]
    rw [hconnErr] at hnot
    exact h.null c fun hboth => hnot ⟨hboth.1, hopen' c⟩

/-- Behind a query comes one on the next connection, or the test of the flag. -/
theorem after_query {s : Setup} {c : Conn} (hc : c ∈ s.conns) (t : Thread) {connErr : ℕ}
    (hzero : connErr = 0) :
    let place := ((s.next c).map Place.query).getD .test
    PlaceOk s place ∧ ErrorsOk t.group connErr place ∧ (∀ d, isOpen place connErr d) ∧
      place ≠ .add := by
  cases hnext : s.next c with
  | some d => exact ⟨(next_mem hc hnext).1, hzero, fun _ => trivial, nofun⟩
  | none => exact ⟨trivial, hzero, fun _ => trivial, nofun⟩

/-- A statement of a thread keeps the invariant. -/
theorem inv_threadStep {s : Setup} {w : World} (h : Inv s w) {t : Thread}
    (ht : t.index < s.threadsNum) (reply : Reply) : Inv s (threadStep s w t reply) := by
  have hthread := h.thread t
  unfold threadStep
  cases hplace : w.place t with
  | ended => exact h
  | connect c =>
    have hnull : w.slots.slot ⟨t, c⟩ = none := by
      refine hthread.null c fun hboth => ?_
      have hopen := hboth.2
      rw [hplace] at hopen
      exact lt_irrefl _ hopen
    exact h.threadGoto ht (by simp [hplace]) (opened_accounts t c reply h.accounts hnull)
      (onlyOf_opened w t c reply _) (threadOk_connect hthread hplace reply)
  | ifErrors =>
    have hopen : ∀ d, isOpen (w.place t) (w.connErr t) d := fun _ => hplace ▸ trivial
    have hcounted : w.selected t = w.added t := by simpa [hplace] using hthread.counted
    have herrors : t.group = .first := by simpa [hplace, ErrorsOk] using hthread.errors
    show Inv s (w.goto t (if w.connErr t = 0 then .test else .ended))
    refine h.threadGoto ht (by simp [hplace]) h.accounts (onlyOf_goto (fun _ _ => rfl) _) ?_
    split
    · rename_i hzero
      exact threadOk_goto hthread hopen (Function.update_self _ _ _) rfl rfl rfl trivial hzero
        (fun _ => trivial) hcounted
    · rename_i herr
      refine threadOk_goto hthread hopen (Function.update_self _ _ _) rfl rfl rfl trivial ?_
        (fun _ => herr) hcounted
      intro hsecond
      rw [herrors] at hsecond
      cases hsecond
  | test =>
    have hopen : ∀ d, isOpen (w.place t) (w.connErr t) d := fun _ => hplace ▸ trivial
    have hcounted : w.selected t = w.added t := by simpa [hplace] using hthread.counted
    have hzero : w.connErr t = 0 := by simpa [hplace, ErrorsOk] using hthread.errors
    show Inv s (w.goto t (if w.exitFlag then .close .conn1 else .query .conn1))
    refine h.threadGoto ht (by simp [hplace]) h.accounts (onlyOf_goto (fun _ _ => rfl) _) ?_
    split
    · exact threadOk_goto hthread hopen (Function.update_self _ _ _) rfl rfl rfl (conn1_mem s)
        hzero (fun _ => Nat.zero_le _) hcounted
    · exact threadOk_goto hthread hopen (Function.update_self _ _ _) rfl rfl rfl (conn1_mem s)
        hzero (fun _ => trivial) hcounted
  | query c =>
    have hopen : ∀ d, isOpen (w.place t) (w.connErr t) d := fun _ => hplace ▸ trivial
    have hcounted : w.selected t = w.added t := by simpa [hplace] using hthread.counted
    have hzero : w.connErr t = 0 := by simpa [hplace, ErrorsOk] using hthread.errors
    have hc : c ∈ s.conns := by simpa [hplace, PlaceOk] using hthread.place
    have hslot : (w.slots.useAt ⟨t, c⟩).slot = w.slots.slot := Slots.useAt_slot _ _
    dsimp only
    split
    · refine h.threadGoto ht (by simp [hplace]) (h.accounts.useAt _) ?_ ?_
      · refine ⟨fun l _ => by rw [← hslot]; rfl, fun _ _ => rfl,
          fun u hu => Function.update_of_ne hu _ _, fun _ _ => rfl,
          fun u hu => Function.update_of_ne hu _ _, fun _ _ => rfl, rfl, 0, rfl, ?_⟩
        simp [World.goto]
      · refine threadOk_goto hthread hopen (Function.update_self _ _ _) rfl hslot rfl trivial hzero
          (fun _ => trivial) ?_
        show Function.update w.selected t _ t = w.added t + 1
        rw [Function.update_self, hcounted]
    · obtain ⟨hplaceOk, herrors, hopen', hadd⟩ := after_query hc t hzero
      refine h.threadGoto ht (by simp [hplace]) (h.accounts.useAt _)
        (onlyOf_goto (fun l _ => by rw [hslot]) _) ?_
      refine threadOk_goto hthread hopen (Function.update_self _ _ _) rfl hslot rfl hplaceOk
        herrors hopen' ?_
      rw [if_neg hadd]
      exact hcounted
  | add =>
    have hopen : ∀ d, isOpen (w.place t) (w.connErr t) d := fun _ => hplace ▸ trivial
    have hcounted : w.selected t = w.added t + 1 := by simpa [hplace] using hthread.counted
    have hzero : w.connErr t = 0 := by simpa [hplace, ErrorsOk] using hthread.errors
    obtain ⟨hplaceOk, herrors, hopen', hadd⟩ := after_query (conn1_mem s) t hzero
    refine h.threadGoto ht (by simp [hplace]) h.accounts ?_ ?_
    · refine ⟨fun _ _ => rfl, fun _ _ => rfl, fun u hu => Function.update_of_ne hu _ _,
        fun _ _ => rfl, fun _ _ => rfl, fun u hu => Function.update_of_ne hu _ _, rfl, 1,
        Function.update_self _ _ _, fun group => ?_⟩
      show Function.update w.i t.group _ group = _
      by_cases hgroup : group = t.group
      · rw [hgroup, Function.update_self, if_pos rfl]
      · rw [Function.update_of_ne hgroup, if_neg hgroup, Nat.add_zero]
    · refine threadOk_goto hthread hopen (Function.update_self _ _ _) rfl rfl rfl hplaceOk
        herrors hopen' ?_
      rw [if_neg hadd]
      show w.selected t = Function.update w.added t _ t + 0
      rw [Function.update_self, hcounted]
  | close c =>
    have hslots : ∀ l : Local, l.thread ≠ t →
        (w.slots.closeAt ⟨t, c⟩).slot l = w.slots.slot l := by
      intro l hl
      rw [Slots.closeAt_slot, Function.update_of_ne]
      rintro rfl
      exact hl rfl
    exact h.threadGoto ht (by simp [hplace]) (h.accounts.closeAt _) (onlyOf_goto hslots _)
      (threadOk_close hthread hplace)

/-- A statement of `load` keeps the invariant. -/
theorem inv_mainStep {s : Setup} {w : World} (h : Inv s w) : Inv s (mainStep s w) := by
  have hjoined := h.joined
  have hgoto : ∀ flag main, (∀ t, Joined s main t → w.place t = .ended) →
      Inv s { w with exitFlag := flag, main := main } :=
    fun _ _ hended => ⟨h.accounts, fun t => ⟨(h.thread t).place, (h.thread t).errors,
      (h.thread t).held, (h.thread t).null, (h.thread t).unmade, (h.thread t).counted⟩, h.idle,
      h.sum, hended⟩
  unfold mainStep
  cases hmain : w.main with
  | sleep =>
    refine hgoto true _ fun t ht => ?_
    rcases ht with hlt | ⟨-, -, hgroup⟩
    · exact absurd hlt (Nat.not_lt_zero _)
    · cases hgroup
  | join u =>
    rw [hmain] at hjoined
    dsimp only
    split
    · split
      · rename_i hended
        refine hgoto w.exitFlag _ fun t ht => ?_
        obtain ⟨group, index⟩ := u
        obtain ⟨tgroup, tindex⟩ := t
        cases group with
        | first =>
          rcases ht with hlt | ⟨heq, hfirst, -⟩
          · exact hjoined _ (.inl hlt)
          · obtain rfl : tindex = index := heq
            obtain rfl : tgroup = .first := hfirst
            exact hended
        | second =>
          rcases ht with hlt | ⟨-, -, hgroup⟩
          · rcases Nat.lt_succ_iff_lt_or_eq.mp hlt with hlt | heq
            · exact hjoined _ (.inl hlt)
            · obtain rfl : tindex = index := heq
              cases tgroup with
              | first => exact hjoined _ (.inr ⟨rfl, rfl, rfl⟩)
              | second => exact hended
          · cases hgroup
      · exact h
    · rename_i hall
      refine hgoto w.exitFlag _ fun t ht => hjoined t (.inl ?_)
      exact Nat.lt_of_lt_of_le ht (Nat.le_of_not_lt hall)
  | done => exact h

/-- **Step.** Every statement of every thread keeps the invariant. -/
theorem inv_step {s : Setup} {w : World} (turn : Turn) (h : Inv s w) : Inv s (step s w turn) := by
  cases turn with
  | main => exact inv_mainStep h
  | thread t reply =>
    rw [step]
    split
    · exact inv_threadStep h ‹_› reply
    · exact h

/-! ### Whole runs -/

/-- The connections that a thread has been given. -/
def Given (w : World) (t : Thread) (x : ℕ) : Prop := ∃ c, w.made ⟨t, c⟩ = some x

end MaxScaleSystemTest.Load.BigLoad
