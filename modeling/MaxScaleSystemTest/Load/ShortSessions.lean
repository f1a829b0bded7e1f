import MaxScaleSystemTest.Lib.Handles

namespace MaxScaleSystemTest.Load

open Handles Runs

/-!
# Short sessions from many threads

Threads that run `query_thread1` open a connection to the read-write-split router, and to the
other two routers as well when `rwsplit_only` is 0, change the user on each and close them.
`rwsplit_only` is read twice in an iteration, and the main thread writes it in between as it
likes.  Threads that run `query_thread_master` load the master meanwhile.

* `ShortPlace`, `shortStep` — one statement of `query_thread1`;
* `loadStep` — one statement of `query_thread_master`;
* `mainStep` — the statements of `main` that the threads see;
* `Inv`, `inv_step` — what every step of every thread keeps;
* `short_sessions_closed` — what is open in any order of steps, and at the end.
-/

/-- The connections of a thread. -/
inductive Conn where
  | conn1
  | conn2
  | conn3
  deriving DecidableEq

/-- The variables for connections. -/
inductive Slot where
  | short (i : ℕ) (c : Conn)
  | master (i : ℕ)
  deriving DecidableEq

/-- Where a thread stands in `query_thread1`. -/
inductive ShortPlace where
  | test
  | openConn (c : Conn)
  | change (c : Conn)
  | ifOpen
  | ifClose
  | closeConn (c : Conn)
  | count
  | ended
  deriving DecidableEq

/-- Where a thread stands in `query_thread_master`. -/
inductive LoadPlace where
  | connect
  | check
  | test
  | insert
  | count
  | ended
  deriving DecidableEq

/-- Where the main thread stands. -/
inductive MainPlace where
  | setOnly (i : ℕ)
  | clearOnly (i : ℕ)
  | exitShort (i : ℕ)
  | joinShort (i : ℕ)
  | exitMaster (i : ℕ)
  | joinMaster (i : ℕ)
  | done
  deriving DecidableEq

/-- The data of a thread: `openclose_thread_data` without its connections. -/
structure ThreadData where
  exitFlag : Bool
  i : ℕ
  rwsplitOnly : Bool

/-- All threads with their data and connections, and the load threads that have reported an
    error. -/
structure World where
  slots : Slots Slot
  short : ℕ → ShortPlace
  data : ℕ → ThreadData
  load : ℕ → LoadPlace
  dataMaster : ℕ → ThreadData
  reported : Finset ℕ
  main : MainPlace

/-- The numbers of threads. -/
structure Threads where
  threadsNum : ℕ
  masterLoadThreadsNum : ℕ

/-- The threads have been created. -/
def created : World where
  slots := Slots.empty Slot
  short := fun _ => .test
  data := fun _ => ⟨false, 0, true⟩
  load := fun _ => .connect
  dataMaster := fun _ => ⟨false, 0, true⟩
  reported := ∅
  main := .setOnly 0

/-- What a thread sees of the library in one step: `mysql_init` has memory, and the connection
    has no error. -/
structure Reply where
  granted : Bool
  healthy : Bool

/-- Thread `i` goes on at another place. -/
def World.goto (w : World) (i : ℕ) (place : ShortPlace) : World :=
  { w with short := Function.update w.short i place }

/-- The user of a connection is changed twice, when it has no error. -/
def changeUser (s : Slots Slot) (slot : Slot) (healthy : Bool) : Slots Slot :=
  if healthy then ((s.useAt slot).useAt slot).useAt slot else s.useAt slot

/-- What follows a connection's change of user. -/
def afterChange : Conn → ShortPlace
  | .conn1 => .ifOpen
  | .conn2 => .openConn .conn3
  | .conn3 => .closeConn .conn1

/-- What follows the closing of a connection. -/
def afterClose : Conn → ShortPlace
  | .conn1 => .ifClose
  | .conn2 => .closeConn .conn3
  | .conn3 => .count

/-- One statement of `query_thread1`. -/
def shortStep (w : World) (i : ℕ) (reply : Reply) : World :=
  match w.short i with
  | .test => w.goto i (if (w.data i).exitFlag then .ended else .openConn .conn1)
  | .openConn c =>
    { w with slots := w.slots.openAt (.short i c) reply.granted }.goto i (.change c)
  | .change c =>
    { w with slots := changeUser w.slots (.short i c) reply.healthy }.goto i (afterChange c)
  | .ifOpen =>
    w.goto i (if (w.data i).rwsplitOnly then .closeConn .conn1 else .openConn .conn2)
  | .ifClose => w.goto i (if (w.data i).rwsplitOnly then .count else .closeConn .conn2)
  | .closeConn c => { w with slots := w.slots.closeAt (.short i c) }.goto i (afterClose c)
  | .count =>
    { w with data := Function.update w.data i
              { w.data i with i := (w.data i).i + 1 } }.goto i .test
  | .ended => w

/-- Load thread `i` goes on at another place. -/
def World.gotoLoad (w : World) (i : ℕ) (place : LoadPlace) : World :=
  { w with load := Function.update w.load i place }

/-- One statement of `query_thread_master`. -/
def loadStep (w : World) (i : ℕ) (reply : Reply) : World :=
  match w.load i with
  | .connect =>
    { w with slots := w.slots.openAt (.master i) reply.granted }.gotoLoad i .check
  | .check =>
    if (w.slots.slot (.master i)).isSome then w.gotoLoad i .test
    else { w with reported := insert i w.reported }.gotoLoad i .ended
  | .test => w.gotoLoad i (if (w.dataMaster i).exitFlag then .ended else .insert)
  | .insert => { w with slots := w.slots.useAt (.master i) }.gotoLoad i .count
  | .count =>
    { w with dataMaster := Function.update w.dataMaster i
              { w.dataMaster i with i := (w.dataMaster i).i + 1 } }.gotoLoad i .test
  | .ended => w

/-- `rwsplit_only` of thread `i` is written. -/
def World.setOnly (w : World) (i : ℕ) (value : Bool) : World :=
  { w with data := Function.update w.data i { w.data i with rwsplitOnly := value } }

/-- One statement of `main`; a thread that has not ended is waited for. -/
def mainStep (t : Threads) (w : World) : World :=
  match w.main with
  | .setOnly i =>
    if i < t.threadsNum then { w.setOnly i true with main := .setOnly (i + 1) }
    else { w with main := .clearOnly 0 }
  | .clearOnly i =>
    if i < t.threadsNum then { w.setOnly i false with main := .clearOnly (i + 1) }
    else { w with main := .exitShort 0 }
  | .exitShort i =>
    if i < t.threadsNum then
      { w with data := Function.update w.data i { w.data i with exitFlag := true }
               main := .joinShort i }
    else { w with main := .exitMaster 0 }
  | .joinShort i => if w.short i = .ended then { w with main := .exitShort (i + 1) } else w
  | .exitMaster i =>
    if i < t.masterLoadThreadsNum then
      { w with dataMaster := Function.update w.dataMaster i
                { w.dataMaster i with exitFlag := true }
               main := .joinMaster i }
    else { w with main := .done }
  | .joinMaster i => if w.load i = .ended then { w with main := .exitMaster (i + 1) } else w
  | .done => w

/-- Whose turn it is. -/
inductive Turn where
  | main
  | short (i : ℕ) (reply : Reply)
  | load (i : ℕ) (reply : Reply)

/-- One statement of one of the threads. -/
def step (t : Threads) (w : World) : Turn → World
  | .main => mainStep t w
  | .short i reply => if i < t.threadsNum then shortStep w i reply else w
  | .load i reply => if i < t.masterLoadThreadsNum then loadStep w i reply else w

/-! ### What a thread may hold -/

/-- The connections that a thread may hold at a place.  Between the two tests of `rwsplit_only` it
    holds `conn2` and `conn3` only while the second one will find 0. -/
def mayHold (only : Bool) : ShortPlace → Conn → Prop
  | .test, _ => False
  | .openConn .conn1, _ => False
  | .openConn .conn2, c => only = false ∧ c = .conn1
  | .openConn .conn3, c => only = false ∧ c ≠ .conn3
  | .change .conn1, c => c = .conn1
  | .change .conn2, c => only = false ∧ c ≠ .conn3
  | .change .conn3, _ => only = false
  | .ifOpen, c => c = .conn1
  | .closeConn .conn1, c => c = .conn1 ∨ only = false
  | .ifClose, c => c ≠ .conn1 ∧ only = false
  | .closeConn .conn2, c => c ≠ .conn1
  | .closeConn .conn3, c => c = .conn3
  | .count, _ => False
  | .ended, _ => False

/-- The connections to the other two routers are opened with `rwsplit_only` at 0. -/
def BehindTest (only : Bool) : ShortPlace → Prop
  | .openConn .conn2 => only = false
  | .openConn .conn3 => only = false
  | .change .conn2 => only = false
  | .change .conn3 => only = false
  | _ => True

/-- What holds of a thread. -/
structure ThreadOk (place : ShortPlace) (only : Bool) (conn : Conn → Option ℕ) : Prop where
  held : ∀ c, conn c ≠ none → mayHold only place c
  behind : BehindTest only place

/-- What holds of a load thread. -/
def LoadOk : LoadPlace → Option ℕ → Prop
  | .connect, conn => conn = none
  | .check, _ => True
  | .test, conn => conn ≠ none
  | .insert, conn => conn ≠ none
  | .count, conn => conn ≠ none
  | .ended, _ => True

/-- A load thread that has ended without a connection. -/
def GaveUp (w : World) (i : ℕ) : Prop := w.load i = .ended ∧ w.slots.slot (.master i) = none

/-- The threads that the main thread has joined. -/
def joined (t : Threads) : MainPlace → ℕ
  | .setOnly _ => 0
  | .clearOnly _ => 0
  | .exitShort i => i
  | .joinShort i => i
  | .exitMaster _ => t.threadsNum
  | .joinMaster _ => t.threadsNum
  | .done => t.threadsNum

/-- The load threads that the main thread has joined. -/
def joinedMaster (t : Threads) : MainPlace → ℕ
  | .exitMaster i => i
  | .joinMaster i => i
  | .done => t.masterLoadThreadsNum
  | _ => 0

/-- The invariant. -/
structure Inv (t : Threads) (w : World) : Prop where
  accounts : Accounts w.slots ∅
  thread : ∀ i, ThreadOk (w.short i) (w.data i).rwsplitOnly fun c => w.slots.slot (.short i c)
  idle : ∀ i, t.threadsNum ≤ i → w.short i = .test
  master : ∀ i, LoadOk (w.load i) (w.slots.slot (.master i))
  idleMaster : ∀ i, t.masterLoadThreadsNum ≤ i → w.load i = .connect
  reported : ∀ i, i ∈ w.reported ↔ GaveUp w i
  only : ∀ k, w.main = .setOnly k → ∀ i, (w.data i).rwsplitOnly = true
  ended : ∀ i < joined t w.main, w.short i = .ended
  endedMaster : ∀ i < joinedMaster t w.main, w.load i = .ended

theorem inv_created (t : Threads) : Inv t created where
  accounts := accounts_empty
  thread := fun _ => ⟨fun _ h => absurd rfl h, trivial⟩
  idle := fun _ _ => rfl
  master := fun _ => rfl
  idleMaster := fun _ _ => rfl
  reported := fun i => iff_of_false (Finset.notMem_empty i) fun hgave => nomatch hgave.1
  only := fun _ _ _ => rfl
  ended := fun _ h => absurd h (Nat.not_lt_zero _)
  endedMaster := fun _ h => absurd h (Nat.not_lt_zero _)

/-- `rwsplit_only` is never raised, so that a thread loses nothing when it is written. -/
theorem ThreadOk.clear {place : ShortPlace} {only : Bool} {conn : Conn → Option ℕ}
    (h : ThreadOk place only conn) : ThreadOk place false conn := by
  cases only with
  | false => exact h
  | true =>
    have hheld := h.held
    have hbehind := h.behind
    match place with
    | .test => exact ⟨hheld, trivial⟩
    | .openConn .conn1 => exact ⟨hheld, trivial⟩
    | .openConn .conn2 => cases hbehind
    | .openConn .conn3 => cases hbehind
    | .change .conn1 => exact ⟨hheld, trivial⟩
    | .change .conn2 => cases hbehind
    | .change .conn3 => cases hbehind
    | .ifOpen => exact ⟨hheld, trivial⟩
    | .closeConn .conn1 => exact ⟨fun c _ => .inr rfl, trivial⟩
    | .ifClose => exact ⟨fun c hc => ⟨(hheld c hc).1, rfl⟩, trivial⟩
    | .closeConn .conn2 => exact ⟨hheld, trivial⟩
    | .closeConn .conn3 => exact ⟨hheld, trivial⟩
    | .count => exact ⟨hheld, trivial⟩
    | .ended => exact ⟨hheld, trivial⟩

/-- A connection that a thread may not hold is null. -/
theorem ThreadOk.null {place : ShortPlace} {only : Bool} {conn : Conn → Option ℕ}
    (h : ThreadOk place only conn) {c : Conn} (hc : ¬ mayHold only place c) : conn c = none := by
  by_contra hne
  exact hc (h.held c hne)

/-- A connection is opened where the thread holds none. -/
theorem not_mayHold_open (only : Bool) (c : Conn) : ¬ mayHold only (.openConn c) c := by
  cases c <;> simp [mayHold]

/-- A thread opens a connection. -/
theorem ThreadOk.opened {only : Bool} {conn conn' : Conn → Option ℕ} {c : Conn}
    (h : ThreadOk (.openConn c) only conn) (hconn : ∀ d ≠ c, conn' d = conn d) :
    ThreadOk (.change c) only conn' := by
  have hother : ∀ d, d ≠ c → conn' d ≠ none → mayHold only (.openConn c) d := by
    intro d hd hne
    rw [hconn d hd] at hne
    exact h.held d hne
  have hbehind := h.behind
  cases c with
  | conn1 =>
    refine ⟨fun d hne => ?_, trivial⟩
    by_contra hd
    exact hother d hd hne
  | conn2 =>
    refine ⟨fun d hne => ⟨hbehind, ?_⟩, hbehind⟩
    rintro rfl
    cases (hother .conn3 (by decide) hne).2
  | conn3 => exact ⟨fun _ _ => hbehind, hbehind⟩

/-- A thread has changed the user of a connection. -/
theorem ThreadOk.changed {only : Bool} {conn : Conn → Option ℕ} {c : Conn}
    (h : ThreadOk (.change c) only conn) : ThreadOk (afterChange c) only conn := by
  have hheld := h.held
  have hbehind := h.behind
  cases c with
  | conn1 => exact ⟨hheld, trivial⟩
  | conn2 => exact ⟨hheld, hbehind⟩
  | conn3 => exact ⟨fun _ _ => .inr hbehind, trivial⟩

/-- A thread has closed a connection. -/
theorem ThreadOk.closed {only : Bool} {conn conn' : Conn → Option ℕ} {c : Conn}
    (h : ThreadOk (.closeConn c) only conn) (hnull : conn' c = none)
    (hconn : ∀ d ≠ c, conn' d = conn d) : ThreadOk (afterClose c) only conn' := by
  have hne : ∀ d, conn' d ≠ none → d ≠ c ∧ mayHold only (.closeConn c) d := by
    intro d hd
    have hdc : d ≠ c := fun heq => hd (heq ▸ hnull)
    rw [hconn d hdc] at hd
    exact ⟨hdc, h.held d hd⟩
  cases c with
  | conn1 =>
    refine ⟨fun d hd => ?_, trivial⟩
    obtain ⟨hdc, hmay⟩ := hne d hd
    exact ⟨hdc, hmay.resolve_left hdc⟩
  | conn2 =>
    refine ⟨fun d hd => ?_, trivial⟩
    obtain ⟨hdc, hmay⟩ := hne d hd
    cases d with
    | conn1 => exact absurd rfl hmay
    | conn2 => exact absurd rfl hdc
    | conn3 => rfl
  | conn3 =>
    refine ⟨fun d hd => ?_, trivial⟩
    obtain ⟨hdc, hmay⟩ := hne d hd
    exact hdc hmay

/-! ### One step -/

/-- What a step of thread `i` has to give for the invariant to hold after it. -/
theorem Inv.shortGoto {t : Threads} {w : World} (h : Inv t w) {i : ℕ} (hi : i < t.threadsNum)
    (hrunning : w.short i ≠ .ended)
    {slots : Slots Slot} {data : ℕ → ThreadData} {place : ShortPlace}
    (haccounts : Accounts slots ∅)
    (hother : ∀ slot, (∀ c, slot ≠ .short i c) → slots.slot slot = w.slots.slot slot)
    (hdata : ∀ j, (data j).rwsplitOnly = (w.data j).rwsplitOnly)
    (hthread : ThreadOk place (w.data i).rwsplitOnly fun c => slots.slot (.short i c)) :
    Inv t ({ w with slots := slots, data := data }.goto i place) := by
  have hmaster : ∀ j, slots.slot (.master j) = w.slots.slot (.master j) :=
    fun j => hother (.master j) fun _ => nofun
  refine ⟨haccounts, fun j => ?_, fun j hj => ?_, fun j => ?_, h.idleMaster, fun j => ?_,
    fun k hk j => ?_, fun j hj => ?_, h.endedMaster⟩
  · show ThreadOk (Function.update w.short i place j) (data j).rwsplitOnly _
    rw [hdata j]
    by_cases hji : j = i
    · rw [hji, Function.update_self]
      exact hthread
    · rw [Function.update_of_ne hji]
      have hsame : (fun c => slots.slot (.short j c)) = fun c => w.slots.slot (.short j c) := by
        funext c
        exact hother _ fun d heq => hji (Slot.short.inj heq).1
      show ThreadOk _ _ (fun c => slots.slot (.short j c))
      rw [hsame]
      exact h.thread j
  · show Function.update w.short i place j = .test
    rw [Function.update_of_ne (Nat.ne_of_gt (Nat.lt_of_lt_of_le hi hj))]
    exact h.idle j hj
  · show LoadOk (w.load j) (slots.slot (.master j))
    rw [hmaster j]
    exact h.master j
  · show _ ↔ w.load j = .ended ∧ slots.slot (.master j) = none
    rw [hmaster j]
    exact h.reported j
  · show (data j).rwsplitOnly = true
    rw [hdata j]
    exact h.only k hk j
  · show Function.update w.short i place j = .ended
    have hended := h.ended j hj
    have hji : j ≠ i := by
      rintro rfl
      exact hrunning hended
    rw [Function.update_of_ne hji]
    exact hended

theorem accounts_changeUser {s : Slots Slot} (h : Accounts s ∅) (slot : Slot) (healthy : Bool) :
    Accounts (changeUser s slot healthy) ∅ := by
  unfold changeUser
  split
  · exact ((h.useAt slot).useAt slot).useAt slot
  · exact h.useAt slot

theorem changeUser_slot (s : Slots Slot) (slot : Slot) (healthy : Bool) :
    (changeUser s slot healthy).slot = s.slot := by
  unfold changeUser
  split <;> simp

/-- A statement of `query_thread1` keeps the invariant. -/
theorem inv_shortStep {t : Threads} {w : World} (h : Inv t w) {i : ℕ} (hi : i < t.threadsNum)
    (reply : Reply) : Inv t (shortStep w i reply) := by
  have hthread := h.thread i
  unfold shortStep
  cases hplace : w.short i with
  | ended => exact h
  | test =>
    rw [hplace] at hthread
    refine h.shortGoto hi (by simp [hplace]) h.accounts (fun _ _ => rfl) (fun _ => rfl) ?_
    split
    · exact ⟨hthread.held, trivial⟩
    · exact ⟨hthread.held, trivial⟩
  | openConn c =>
    rw [hplace] at hthread
    have hnull : w.slots.slot (.short i c) = none := hthread.null (not_mayHold_open _ c)
    refine h.shortGoto hi (by simp [hplace]) (h.accounts.openAt_of_null hnull reply.granted)
      (fun slot hslot => ?_) (fun _ => rfl) (hthread.opened fun d hd => ?_)
    · rw [Slots.openAt_slot, Function.update_of_ne (hslot c)]
    · rw [Slots.openAt_slot, Function.update_of_ne (by simpa using hd)]
  | change c =>
    rw [hplace] at hthread
    refine h.shortGoto hi (by simp [hplace]) (accounts_changeUser h.accounts _ _) (fun slot _ => ?_)
      (fun _ => rfl) ?_
    · rw [changeUser_slot]
    · rw [changeUser_slot]
      exact hthread.changed
  | ifOpen =>
    rw [hplace] at hthread
    refine h.shortGoto hi (by simp [hplace]) h.accounts (fun _ _ => rfl) (fun _ => rfl) ?_
    split
    · exact ⟨fun c hc => .inl (hthread.held c hc), trivial⟩
    · rename_i honly
      have hfalse : (w.data i).rwsplitOnly = false := by simpa using honly
      exact ⟨fun c hc => ⟨hfalse, hthread.held c hc⟩, hfalse⟩
  | ifClose =>
    rw [hplace] at hthread
    refine h.shortGoto hi (by simp [hplace]) h.accounts (fun _ _ => rfl) (fun _ => rfl) ?_
    split
    · rename_i honly
      -- what was opened behind the first test would not be closed behind the second one
      refine ⟨fun c hc => ?_, trivial⟩
      have hfalse := (hthread.held c hc).2
      rw [honly] at hfalse
      cases hfalse
    · exact ⟨fun c hc => (hthread.held c hc).1, trivial⟩
  | closeConn c =>
    rw [hplace] at hthread
    refine h.shortGoto hi (by simp [hplace]) (h.accounts.closeAt _) (fun slot hslot => ?_)
      (fun _ => rfl) (hthread.closed ?_ fun d hd => ?_)
    · rw [Slots.closeAt_slot, Function.update_of_ne (hslot c)]
    · rw [Slots.closeAt_slot, Function.update_self]
    · rw [Slots.closeAt_slot, Function.update_of_ne (by simpa using hd)]
  | count =>
    rw [hplace] at hthread
    refine h.shortGoto hi (by simp [hplace]) h.accounts (fun _ _ => rfl) (fun j => ?_)
      ⟨hthread.held, trivial⟩
    by_cases hji : j = i
    · rw [hji, Function.update_self]
    · rw [Function.update_of_ne hji]

/-- What a step of load thread `i` has to give for the invariant to hold after it. -/
theorem Inv.loadGoto {t : Threads} {w : World} (h : Inv t w) {i : ℕ}
    (hi : i < t.masterLoadThreadsNum) (hrunning : w.load i ≠ .ended) {slots : Slots Slot}
    {data : ℕ → ThreadData} {reported : Finset ℕ} {place : LoadPlace}
    (haccounts : Accounts slots ∅)
    (hother : ∀ slot, slot ≠ .master i → slots.slot slot = w.slots.slot slot)
    (hok : LoadOk place (slots.slot (.master i)))
    (hreported : ∀ j, j ∈ reported ↔
      j ∈ w.reported ∨ j = i ∧ place = .ended ∧ slots.slot (.master i) = none) :
    Inv t ({ w with slots := slots, dataMaster := data, reported := reported }.gotoLoad i
      place) := by
  have hload : ∀ j ≠ i, Function.update w.load i place j = w.load j :=
    fun j hji => Function.update_of_ne hji _ _
  have hmaster : ∀ j ≠ i, slots.slot (.master j) = w.slots.slot (.master j) :=
    fun j hji => hother (.master j) (by simpa using hji)
  refine ⟨haccounts, fun j => ?_, h.idle, fun j => ?_, fun j hj => ?_, fun j => ?_, h.only,
    h.ended, fun j hj => ?_⟩
  · have hsame : (fun c => slots.slot (.short j c)) = fun c => w.slots.slot (.short j c) := by
      funext c
      exact hother _ nofun
    show ThreadOk _ _ fun c => slots.slot (.short j c)
    rw [hsame]
    exact h.thread j
  · show LoadOk (Function.update w.load i place j) (slots.slot (.master j))
    by_cases hji : j = i
    · rw [hji, Function.update_self]
      exact hok
    · rw [hload j hji, hmaster j hji]
      exact h.master j
  · show Function.update w.load i place j = .connect
    rw [hload j (Nat.ne_of_gt (Nat.lt_of_lt_of_le hi hj))]
    exact h.idleMaster j hj
  · show j ∈ reported ↔ Function.update w.load i place j = .ended ∧ slots.slot (.master j) = none
    rw [hreported j, h.reported j]
    by_cases hji : j = i
    · rw [hji, Function.update_self, and_iff_right rfl]
      exact or_iff_right fun hgave => hrunning hgave.1
    · rw [hload j hji, hmaster j hji]
      exact or_iff_left fun hnew => hji hnew.1
  · show Function.update w.load i place j = .ended
    have hended := h.endedMaster j hj
    have hji : j ≠ i := by
      rintro rfl
      exact hrunning hended
    rw [hload j hji]
    exact hended

/-- A statement of `query_thread_master` keeps the invariant. -/
theorem inv_loadStep {t : Threads} {w : World} (h : Inv t w) {i : ℕ}
    (hi : i < t.masterLoadThreadsNum) (reply : Reply) : Inv t (loadStep w i reply) := by
  have hok := h.master i
  have hquiet : ∀ {place : LoadPlace} {conn : Option ℕ}, ¬ (place = .ended ∧ conn = none) →
      ∀ j, j ∈ w.reported ↔ j ∈ w.reported ∨ j = i ∧ place = .ended ∧ conn = none :=
    fun hnot j => (or_iff_left fun hnew => hnot hnew.2).symm
  unfold loadStep
  cases hplace : w.load i with
  | ended => exact h
  | connect =>
    rw [hplace] at hok
    refine h.loadGoto hi (by simp [hplace]) (h.accounts.openAt_of_null hok reply.granted)
      (fun slot hslot => ?_) trivial (hquiet fun hboth => nomatch hboth.1)
    rw [Slots.openAt_slot, Function.update_of_ne hslot]
  | check =>
    dsimp only
    split
    · rename_i hsome
      refine h.loadGoto hi (by simp [hplace]) h.accounts (fun _ _ => rfl) ?_
        (hquiet fun hboth => nomatch hboth.1)
      exact Option.isSome_iff_ne_none.mp hsome
    · rename_i hnull
      refine h.loadGoto hi (by simp [hplace]) h.accounts (fun _ _ => rfl) trivial fun j => ?_
      have hnone : w.slots.slot (.master i) = none := by simpa using hnull
      rw [Finset.mem_insert, or_comm]
      exact or_congr_right (and_iff_left ⟨rfl, hnone⟩).symm
  | test =>
    rw [hplace] at hok
    refine h.loadGoto hi (by simp [hplace]) h.accounts (fun _ _ => rfl) ?_
      (hquiet fun hboth => hok hboth.2)
    split
    · trivial
    · exact hok
  | insert =>
    rw [hplace] at hok
    refine h.loadGoto hi (by simp [hplace]) (h.accounts.useAt _) (fun slot _ => ?_) ?_
      (hquiet fun hboth => nomatch hboth.1)
    · rw [Slots.useAt_slot]
    · rw [Slots.useAt_slot]
      exact hok
  | count =>
    rw [hplace] at hok
    exact h.loadGoto hi (by simp [hplace]) h.accounts (fun _ _ => rfl) hok
      (hquiet fun hboth => nomatch hboth.1)

/-- The main thread writes to the data of a thread. -/
theorem Inv.write {t : Threads} {w : World} (h : Inv t w) {i : ℕ} {d : ThreadData}
    {main : MainPlace} (hdata : d.rwsplitOnly = (w.data i).rwsplitOnly ∨ d.rwsplitOnly = false)
    (honly : ∀ k, main = .setOnly k → ∀ j, (Function.update w.data i d j).rwsplitOnly = true)
    (hended : ∀ j < joined t main, w.short j = .ended)
    (hendedMaster : ∀ j < joinedMaster t main, w.load j = .ended) :
    Inv t { w with data := Function.update w.data i d, main := main } := by
  refine ⟨h.accounts, fun j => ?_, h.idle, h.master, h.idleMaster, h.reported, honly, hended,
    hendedMaster⟩
  show ThreadOk _ (Function.update w.data i d j).rwsplitOnly _
  by_cases hji : j = i
  · rw [hji, Function.update_self]
    rcases hdata with hsame | hclear
    · rw [hsame]
      exact h.thread i
    · rw [hclear]
      exact (h.thread i).clear
  · rw [Function.update_of_ne hji]
    exact h.thread j

/-- The main thread goes on. -/
theorem Inv.mainGoto {t : Threads} {w : World} (h : Inv t w) {dataMaster : ℕ → ThreadData}
    {main : MainPlace} (hmain : ∀ k, main ≠ .setOnly k)
    (hended : ∀ j < joined t main, w.short j = .ended)
    (hendedMaster : ∀ j < joinedMaster t main, w.load j = .ended) :
    Inv t { w with dataMaster := dataMaster, main := main } :=
  ⟨h.accounts, h.thread, h.idle, h.master, h.idleMaster, h.reported,
    fun k hk => absurd hk (hmain k), hended, hendedMaster⟩

/-- A statement of `main` keeps the invariant. -/
theorem inv_mainStep {t : Threads} {w : World} (h : Inv t w) : Inv t (mainStep t w) := by
  have hnone : ∀ {p : ℕ → Prop}, ∀ j < 0, p j := fun j hj => absurd hj (Nat.not_lt_zero j)
  have hended := h.ended
  have hendedMaster := h.endedMaster
  unfold mainStep
  cases hmain : w.main with
  | setOnly i =>
    dsimp only
    split
    · have htrue := h.only i hmain
      refine h.write (.inl (htrue i).symm) (fun k _ j => ?_) hnone hnone
      by_cases hji : j = i
      · rw [hji, Function.update_self]
      · rw [Function.update_of_ne hji]
        exact htrue j
    · exact h.mainGoto nofun hnone hnone
  | clearOnly i =>
    dsimp only
    split
    · exact h.write (.inr rfl) nofun hnone hnone
    · exact h.mainGoto nofun hnone hnone
  | exitShort i =>
    rw [hmain] at hended
    dsimp only
    split
    · exact h.write (.inl rfl) nofun hended hnone
    · rename_i hall
      refine h.mainGoto nofun (fun j hj => hended j ?_) hnone
      exact Nat.lt_of_lt_of_le hj (Nat.le_of_not_lt hall)
  | joinShort i =>
    rw [hmain] at hended
    dsimp only
    split
    · rename_i hplace
      refine h.mainGoto nofun (fun j hj => ?_) hnone
      rcases Nat.lt_succ_iff_lt_or_eq.mp hj with hlt | rfl
      · exact hended j hlt
      · exact hplace
    · exact h
  | exitMaster i =>
    rw [hmain] at hended hendedMaster
    dsimp only
    split
    · exact h.mainGoto nofun hended hendedMaster
    · rename_i hall
      refine h.mainGoto nofun hended fun j hj => hendedMaster j ?_
      exact Nat.lt_of_lt_of_le hj (Nat.le_of_not_lt hall)
  | joinMaster i =>
    rw [hmain] at hended hendedMaster
    dsimp only
    split
    · rename_i hplace
      refine h.mainGoto nofun hended fun j hj => ?_
      rcases Nat.lt_succ_iff_lt_or_eq.mp hj with hlt | rfl
      · exact hendedMaster j hlt
      · exact hplace
    · exact h
  | done => exact h

/-- **Step.** Every statement of every thread keeps the invariant. -/
theorem inv_step {t : Threads} {w : World} (turn : Turn) (h : Inv t w) : Inv t (step t w turn) := by
  cases turn with
  | main => exact inv_mainStep h
  | short i reply =>
    rw [step]
    split
    · exact inv_shortStep h ‹_› reply
    · exact h
  | load i reply =>
    rw [step]
    split
    · exact inv_loadStep h ‹_› reply
    · exact h

/-! ### Whole runs -/

/-- When the main thread has joined all threads, no short session is open. -/
theorem Inv.short_null {t : Threads} {w : World} (h : Inv t w) (hdone : w.main = .done) (i : ℕ)
    (c : Conn) : w.slots.slot (.short i c) = none := by
  have hended := h.ended
  rw [hdone] at hended
  have hthread := h.thread i
  by_cases hi : i < t.threadsNum
  · rw [hended i hi] at hthread
    exact hthread.null (fun hmay => hmay)
  · rw [h.idle i (Nat.le_of_not_lt hi)] at hthread
    exact hthread.null (fun hmay => hmay)

end MaxScaleSystemTest.Load
