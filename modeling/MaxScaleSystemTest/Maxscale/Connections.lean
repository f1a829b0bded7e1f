import Mathlib.Data.Finset.Erase
import Mathlib.Data.Finset.Insert
import MaxScaleSystemTest.Lib.Runs

namespace MaxScaleSystemTest.Maxscale

open Runs

/-!
# The connections to the routers

`TestConnections` keeps a connection to each of three routers in `conn_rwsplit`, `conn_master` and
`conn_slave`, and copies of them in `routers[]`.  A connection for which `mysql_init` has no memory
is a null pointer.  `close_rwsplit` and its two siblings make the pointer null behind `mysql_close`;
`close_maxscale_connections` does not, and none of them writes to `routers[]`.  The constructor
writes to none of the pointers.  `mysql_errno`, `mysql_close` and `execute_query` take a null
pointer.

* `Call`, `perform` — the methods, `none` when one of them passes on a pointer that has not been
  written, or whose connection is closed;
* `Status`, `Ready`, `after` — a machine with one of five states for each router;
* `perform_of_ready`, `perform_of_not_ready` — the methods follow that machine;
* `connection_calls_iff` — which runs of methods are safe, and which connections are open after
  one.
-/

/-- The three routers. -/
inductive Router where
  | rwsplit
  | master
  | slave
  deriving DecidableEq

/-- A variable for a connection: not written, null, or the number of the connection. -/
inductive Pointer where
  | unset
  | null
  | to (h : ℕ)
  deriving DecidableEq

/-- The variables, and the connections that are open. -/
structure Conns where
  conn : Router → Pointer
  routers : Router → Pointer
  live : Finset ℕ
  next : ℕ

/-- Behind the constructor. -/
def Conns.new : Conns := ⟨fun _ => .unset, fun _ => .unset, ∅, 0⟩

/-- `connect_rwsplit`, `connect_readconn_master` or `connect_readconn_slave`; `granted` is whether
    `mysql_init` has memory. -/
def connect (s : Conns) (r : Router) (granted : Bool) : Conns :=
  if granted then
    { conn := Function.update s.conn r (.to s.next)
      routers := Function.update s.routers r (.to s.next)
      live := insert s.next s.live
      next := s.next + 1 }
  else
    { s with
      conn := Function.update s.conn r .null
      routers := Function.update s.routers r .null }

/-- `mysql_close`; a null pointer is left alone. -/
def mysqlClose (s : Conns) : Pointer → Option Conns
  | .unset => none
  | .null => some s
  | .to h => if h ∈ s.live then some { s with live := s.live.erase h } else none

/-- `close_rwsplit`, `close_readconn_master` or `close_readconn_slave`. -/
def close (s : Conns) (r : Router) : Option Conns :=
  (mysqlClose s (s.conn r)).map fun s => { s with conn := Function.update s.conn r .null }

/-- `execute_query`, which returns 1 for a null pointer. -/
def executeQuery (s : Conns) : Pointer → Option Conns
  | .unset => none
  | .null => some s
  | .to h => if h ∈ s.live then some s else none

/-- A call of a method.  `query` and `queryCopy` stand for an `execute_query` or `try_query` of a
    test with one of the pointers; `created` is whether the database of `get_client_ip`, which
    closes a connection of its own before it returns, could be created. -/
inductive Call where
  | connect (r : Router) (granted : Bool)
  | close (r : Router)
  | connectMaxscale (granted : Router → Bool)
  | closeMaxscaleConnections
  | query (r : Router)
  | queryCopy (r : Router)
  | tryQueryAll
  | testMaxscaleConnections
  | checkMaxscaleAlive (granted : Router → Bool)
  | getClientIp (granted created : Bool)

/-- `connect_maxscale`. -/
def connectMaxscale (s : Conns) (granted : Router → Bool) : Conns :=
  connect (connect (connect s .rwsplit (granted .rwsplit)) .master (granted .master)) .slave
    (granted .slave)

/-- `close_maxscale_connections`. -/
def closeMaxscaleConnections (s : Conns) : Option Conns := do
  let s ← mysqlClose s (s.conn .master)
  let s ← mysqlClose s (s.conn .slave)
  mysqlClose s (s.conn .rwsplit)

/-- A query through each of the three pointers: `try_query_all`, `test_maxscale_connections`. -/
def queryAll (s : Conns) : Option Conns := do
  let s ← executeQuery s (s.conn .rwsplit)
  let s ← executeQuery s (s.conn .master)
  executeQuery s (s.conn .slave)

/-- What a method does. -/
def perform (s : Conns) : Call → Option Conns
  | .connect r granted => some (connect s r granted)
  | .close r => close s r
  | .connectMaxscale granted => some (connectMaxscale s granted)
  | .closeMaxscaleConnections => closeMaxscaleConnections s
  | .query r => executeQuery s (s.conn r)
  | .queryCopy r => executeQuery s (s.routers r)
  | .tryQueryAll => queryAll s
  | .testMaxscaleConnections => queryAll s
  | .checkMaxscaleAlive granted => do
    let s ← queryAll (connectMaxscale s granted)
    closeMaxscaleConnections s
  | .getClientIp granted created => do
    let s := connect s .rwsplit granted
    let s ← executeQuery s (s.conn .rwsplit)
    if granted && created then close s .rwsplit else return s

/-! ### Five states -/

/-- What has become of the connection to a router: none has been made, there was no memory for it,
    it is open, it has been closed and the pointer made null, or it has been closed and the pointer
    left. -/
inductive Status where
  | unset
  | failed
  | opened
  | closed
  | dangling
  deriving DecidableEq

/-- The pointer can be passed on. -/
def Status.Usable (st : Status) : Prop := st = .opened ∨ st = .closed ∨ st = .failed

instance (st : Status) : Decidable st.Usable := inferInstanceAs (Decidable (_ ∨ _ ∨ _))

/-- The states, the number of the last connection to each router and of the next one, and the
    connections that have been written over while they were open. -/
structure Abstract where
  status : Router → Status
  last : Router → ℕ
  next : ℕ
  lost : Finset ℕ

def Abstract.new : Abstract := ⟨fun _ => .unset, fun _ => 0, 0, ∅⟩

/-- What is lost when another connection to a router is made. -/
def Abstract.losing (a : Abstract) (r : Router) : Finset ℕ :=
  if a.status r = .opened then insert (a.last r) a.lost else a.lost

/-- A new connection. -/
def Abstract.connect (a : Abstract) (r : Router) (granted : Bool) : Abstract :=
  if granted then
    { status := Function.update a.status r .opened
      last := Function.update a.last r a.next
      next := a.next + 1
      lost := a.losing r }
  else { a with status := Function.update a.status r .failed, lost := a.losing r }

/-- The connection is closed, and the pointer left at `st`. -/
def Abstract.close (a : Abstract) (r : Router) (st : Status) : Abstract :=
  if a.status r = .opened then { a with status := Function.update a.status r st } else a

def Abstract.connectAll (a : Abstract) (granted : Router → Bool) : Abstract :=
  ((a.connect .rwsplit (granted .rwsplit)).connect .master (granted .master)).connect .slave
    (granted .slave)

def Abstract.closeAll (a : Abstract) : Abstract :=
  ((a.close .master .dangling).close .slave .dangling).close .rwsplit .dangling

/-- What a method makes of the states. -/
def after (a : Abstract) : Call → Abstract
  | .connect r granted => a.connect r granted
  | .close r => a.close r .closed
  | .connectMaxscale granted => a.connectAll granted
  | .closeMaxscaleConnections => a.closeAll
  | .query _ => a
  | .queryCopy _ => a
  | .tryQueryAll => a
  | .testMaxscaleConnections => a
  | .checkMaxscaleAlive granted => (a.connectAll granted).closeAll
  | .getClientIp granted created =>
    if granted && created then (a.connect .rwsplit granted).close .rwsplit .closed
    else a.connect .rwsplit granted

/-- When a method is safe. -/
def Ready (a : Abstract) : Call → Prop
  | .close r => (a.status r).Usable
  | .closeMaxscaleConnections => ∀ r, (a.status r).Usable
  | .query r => (a.status r).Usable
  | .queryCopy r => a.status r = .opened ∨ a.status r = .failed
  | .tryQueryAll => ∀ r, (a.status r).Usable
  | .testMaxscaleConnections => ∀ r, (a.status r).Usable
  | _ => True

/-! ### The states tell -/

/-- The pointers of a router, against its state. -/
def Tells (s : Conns) (r : Router) (last : ℕ) : Status → Prop
  | .unset => s.conn r = .unset ∧ s.routers r = .unset
  | .failed => s.conn r = .null ∧ s.routers r = .null
  | .opened => last ∈ s.live ∧ s.conn r = .to last ∧ s.routers r = .to last
  | .closed => last ∉ s.live ∧ s.conn r = .null ∧ s.routers r = .to last
  | .dangling => last ∉ s.live ∧ s.conn r = .to last ∧ s.routers r = .to last

/-- What is open: the connections of the routers that are open, and those that are lost. -/
def Abstract.Open (a : Abstract) (x : ℕ) : Prop :=
  x ∈ a.lost ∨ ∃ r, a.status r = .opened ∧ a.last r = x

/-- The pointers follow the states. -/
structure Follows (s : Conns) (a : Abstract) : Prop where
  tells : ∀ r, Tells s r (a.last r) (a.status r)
  next : s.next = a.next
  live_iff : ∀ x, x ∈ s.live ↔ a.Open x
  sole : ∀ r r' x, s.routers r = .to x → s.routers r' = .to x → r = r'
  old : ∀ r x, s.routers r = .to x → x < s.next
  live_old : ∀ x ∈ s.live, x < s.next
  not_lost : ∀ r, a.status r = .opened → a.last r ∉ a.lost

theorem follows_new : Follows Conns.new Abstract.new where
  tells := fun _ => ⟨rfl, rfl⟩
  next := rfl
  live_iff := fun x => by simp [Conns.new, Abstract.new, Abstract.Open]
  sole := nofun
  old := nofun
  live_old := fun x hx => absurd hx (Finset.notMem_empty x)
  not_lost := nofun

theorem close_status_of_ne (a : Abstract) (r : Router) {r' : Router} (h : r' ≠ r) (st : Status) :
    (a.close r st).status r' = a.status r' := by
  unfold Abstract.close
  split
  · exact Function.update_of_ne h _ _
  · rfl

section Open

variable (a : Abstract) (r : Router)

theorem open_of_mem_losing {x : ℕ} (hx : x ∈ a.losing r) : a.Open x := by
  unfold Abstract.losing at hx
  split at hx
  · rename_i hopen
    rcases Finset.mem_insert.mp hx with rfl | hx
    · exact .inr ⟨r, hopen, rfl⟩
    · exact .inl hx
  · exact .inl hx

theorem mem_losing_of_opened (hopen : a.status r = .opened) : a.last r ∈ a.losing r := by
  rw [Abstract.losing, if_pos hopen]
  exact Finset.mem_insert_self _ _

theorem subset_losing : a.lost ⊆ a.losing r := by
  unfold Abstract.losing
  split
  · exact Finset.subset_insert _ _
  · exact Finset.Subset.refl _

theorem connect_lost (granted : Bool) : (a.connect r granted).lost = a.losing r := by
  cases granted <;> rfl

theorem connect_opened_iff (granted : Bool) (r' : Router) :
    (a.connect r granted).status r' = .opened ↔
      r' = r ∧ granted = true ∨ r' ≠ r ∧ a.status r' = .opened := by
  by_cases h : r' = r <;> cases granted <;> simp [Abstract.connect, h]

theorem connect_last_of_ne (granted : Bool) {r' : Router} (h : r' ≠ r) :
    (a.connect r granted).last r' = a.last r' := by
  cases granted with
  | false => rfl
  | true => exact Function.update_of_ne h _ _

theorem connect_status_of_ne (granted : Bool) {r' : Router} (h : r' ≠ r) :
    (a.connect r granted).status r' = a.status r' := by
  cases granted with
  | false => exact Function.update_of_ne h _ _
  | true => exact Function.update_of_ne h _ _

/-- Another connection closes none. -/
theorem open_connect (granted : Bool) (x : ℕ) :
    (a.connect r granted).Open x ↔ granted = true ∧ x = a.next ∨ a.Open x := by
  rw [Abstract.Open, connect_lost]
  constructor
  · rintro (hx | ⟨r', hst, hlast⟩)
    · exact .inr (open_of_mem_losing a r hx)
    · rcases (connect_opened_iff a r granted r').mp hst with ⟨rfl, rfl⟩ | ⟨hne, hopen⟩
      · have hnew : (a.connect r' true).last r' = a.next := Function.update_self _ _ _
        exact .inl ⟨rfl, hlast.symm.trans hnew⟩
      · rw [connect_last_of_ne a r granted hne] at hlast
        exact .inr (.inr ⟨r', hopen, hlast⟩)
  · rintro (⟨rfl, rfl⟩ | hx | ⟨r', hopen, rfl⟩)
    · exact .inr ⟨r, (connect_opened_iff a r true r).mpr (.inl ⟨rfl, rfl⟩),
        Function.update_self _ _ _⟩
    · exact .inl (subset_losing a r hx)
    · by_cases hne : r' = r
      · rw [hne] at hopen ⊢
        exact .inl (mem_losing_of_opened a r hopen)
      · exact .inr ⟨r', (connect_opened_iff a r granted r').mpr (.inr ⟨hne, hopen⟩),
          connect_last_of_ne a r granted hne⟩

end Open

section Steps

variable {s : Conns} {a : Abstract} {r : Router}

/-- A change of the open connections that leaves those of a router alone. -/
theorem Tells.mono {s' : Conns} {last : ℕ} {st : Status} (h : Tells s r last st)
    (hconn : s'.conn r = s.conn r) (hrouters : s'.routers r = s.routers r)
    (hlive : ∀ x, s.routers r = .to x → (x ∈ s'.live ↔ x ∈ s.live)) : Tells s' r last st := by
  cases st with
  | unset => exact ⟨hconn.trans h.1, hrouters.trans h.2⟩
  | failed => exact ⟨hconn.trans h.1, hrouters.trans h.2⟩
  | opened =>
    obtain ⟨hx, hc, hr⟩ := h
    exact ⟨(hlive last hr).mpr hx, hconn.trans hc, hrouters.trans hr⟩
  | closed =>
    obtain ⟨hx, hc, hr⟩ := h
    exact ⟨fun hmem => hx ((hlive last hr).mp hmem), hconn.trans hc, hrouters.trans hr⟩
  | dangling =>
    obtain ⟨hx, hc, hr⟩ := h
    exact ⟨fun hmem => hx ((hlive last hr).mp hmem), hconn.trans hc, hrouters.trans hr⟩

/-- Two open routers hold different connections. -/
theorem Follows.last_ne (h : Follows s a) (hr : a.status r = .opened) {r' : Router}
    (hr' : a.status r' = .opened) (hne : r' ≠ r) : a.last r' ≠ a.last r := by
  intro heq
  have htells := h.tells r
  have htells' := h.tells r'
  rw [hr] at htells
  rw [hr', heq] at htells'
  exact hne (h.sole r' r _ htells'.2.2 htells.2.2)

/-- What `connect` makes of the variables of its own router. -/
theorem tells_connect (h : Follows s a) (r : Router) (granted : Bool) :
    Tells (connect s r granted) r ((a.connect r granted).last r)
      ((a.connect r granted).status r) := by
  cases granted with
  | false =>
    show Tells _ r _ (Function.update a.status r .failed r)
    rw [Function.update_self]
    exact ⟨Function.update_self _ _ _, Function.update_self _ _ _⟩
  | true =>
    show Tells _ r (Function.update a.last r a.next r) (Function.update a.status r .opened r)
    rw [Function.update_self, Function.update_self, ← h.next]
    exact ⟨Finset.mem_insert_self _ _, Function.update_self _ _ _, Function.update_self _ _ _⟩

theorem next_le_connect (s : Conns) (r : Router) (granted : Bool) :
    s.next ≤ (connect s r granted).next := by
  cases granted with
  | false => exact le_rfl
  | true => exact Nat.le_succ _

theorem next_lt_connect (s : Conns) (r : Router) {granted : Bool} (h : granted = true) :
    s.next < (connect s r granted).next := by
  subst h
  exact Nat.lt_succ_self _

/-- What `connect` writes to the variables of other routers, and what it opens. -/
theorem connect_of_ne (s : Conns) (granted : Bool) {r' : Router} (h : r' ≠ r) :
    (connect s r granted).conn r' = s.conn r' ∧
      (connect s r granted).routers r' = s.routers r' := by
  cases granted with
  | false => exact ⟨Function.update_of_ne h _ _, Function.update_of_ne h _ _⟩
  | true => exact ⟨Function.update_of_ne h _ _, Function.update_of_ne h _ _⟩

theorem mem_connect_live (s : Conns) (r : Router) (granted : Bool) (x : ℕ) :
    x ∈ (connect s r granted).live ↔ granted = true ∧ x = s.next ∨ x ∈ s.live := by
  cases granted with
  | false => exact (or_iff_right fun h => nomatch h.1).symm
  | true => exact Finset.mem_insert.trans (or_congr_left (and_iff_right rfl).symm)

theorem connect_routers (s : Conns) (r : Router) (granted : Bool) {r' : Router} {x : ℕ}
    (h : (connect s r granted).routers r' = .to x) :
    r' = r ∧ granted = true ∧ x = s.next ∨ r' ≠ r ∧ s.routers r' = .to x := by
  by_cases hr : r' = r
  · subst hr
    cases granted with
    | false =>
      have hnull : (connect s r' false).routers r' = .null := Function.update_self _ _ _
      rw [hnull] at h
      cases h
    | true =>
      have hnew : (connect s r' true).routers r' = .to s.next := Function.update_self _ _ _
      rw [hnew, Pointer.to.injEq] at h
      exact .inl ⟨rfl, rfl, h.symm⟩
  · exact .inr ⟨hr, (connect_of_ne s granted hr).2.symm.trans h⟩

theorem follows_connect (h : Follows s a) (r : Router) (granted : Bool) :
    Follows (connect s r granted) (a.connect r granted) where
  tells := by
    intro r'
    by_cases hr : r' = r
    · rw [hr]
      exact tells_connect h r granted
    · obtain ⟨hconn, hrouters⟩ := connect_of_ne s granted hr
      rw [connect_last_of_ne a r granted hr, connect_status_of_ne a r granted hr]
      refine (h.tells r').mono hconn hrouters fun x hx => ?_
      rw [mem_connect_live]
      exact or_iff_right fun hnew => Nat.ne_of_lt (h.old r' x hx) hnew.2
  next := by
    cases granted with
    | false => exact h.next
    | true => exact congrArg (· + 1) h.next
  live_iff := by
    intro x
    rw [mem_connect_live, open_connect, h.live_iff, h.next]
  sole := by
    intro r₁ r₂ x h₁ h₂
    rcases connect_routers s r granted h₁ with ⟨rfl, -, rfl⟩ | ⟨hne, h₁⟩
    · rcases connect_routers s r₁ granted h₂ with ⟨hr₂, -⟩ | ⟨-, h₂⟩
      · exact hr₂.symm
      · exact absurd (h.old r₂ _ h₂) (lt_irrefl _)
    · rcases connect_routers s r granted h₂ with ⟨-, -, rfl⟩ | ⟨-, h₂⟩
      · exact absurd (h.old r₁ _ h₁) (lt_irrefl _)
      · exact h.sole r₁ r₂ x h₁ h₂
  old := by
    intro r' x hx
    rcases connect_routers s r granted hx with ⟨-, hgranted, rfl⟩ | ⟨-, hx⟩
    · exact next_lt_connect s r hgranted
    · exact Nat.lt_of_lt_of_le (h.old r' x hx) (next_le_connect s r granted)
  live_old := by
    intro x hx
    rcases (mem_connect_live s r granted x).mp hx with ⟨hgranted, rfl⟩ | hx
    · exact next_lt_connect s r hgranted
    · exact Nat.lt_of_lt_of_le (h.live_old x hx) (next_le_connect s r granted)
  not_lost := by
    intro r' hopen hlost
    rw [connect_lost] at hlost
    have hopenLost := open_of_mem_losing a r hlost
    rcases (connect_opened_iff a r granted r').mp hopen with ⟨rfl, rfl⟩ | ⟨hne, hopen⟩
    · have hnew : (a.connect r' true).last r' = a.next := Function.update_self _ _ _
      rw [hnew, ← h.next, ← h.live_iff] at hopenLost
      exact lt_irrefl _ (h.live_old _ hopenLost)
    · rw [connect_last_of_ne a r granted hne, Abstract.losing] at hlost
      split at hlost
      · rename_i hother
        rcases Finset.mem_insert.mp hlost with heq | hlost
        · exact h.last_ne hother hopen hne heq
        · exact h.not_lost r' hopen hlost
      · exact h.not_lost r' hopen hlost

/-- The connection of a router is closed, and its pointer is left, or made null. -/
theorem follows_erase (h : Follows s a) (hopen : a.status r = .opened) {s' : Conns} {st : Status}
    (hst : st ≠ .opened) (hroutes : s'.routers = s.routers) (hnext : s'.next = s.next)
    (hlive : s'.live = s.live.erase (a.last r)) (hother : ∀ r' ≠ r, s'.conn r' = s.conn r')
    (htells : Tells s' r (a.last r) st) : Follows s' (a.close r st) := by
  have hself := h.tells r
  rw [hopen] at hself
  have hclose : a.close r st = { a with status := Function.update a.status r st } := if_pos hopen
  have hstatus : (a.close r st).status r = st := by
    rw [hclose]
    exact Function.update_self _ _ _
  have hlast : (a.close r st).last = a.last := by rw [hclose]
  have hlost : (a.close r st).lost = a.lost := by rw [hclose]
  have hopened : ∀ r', (a.close r st).status r' = .opened ↔ r' ≠ r ∧ a.status r' = .opened := by
    intro r'
    by_cases hr' : r' = r
    · rw [hr', hstatus]
      exact iff_of_false hst fun hboth => hboth.1 rfl
    · rw [close_status_of_ne a r hr']
      exact (and_iff_right hr').symm
  refine ⟨fun r' => ?_, ?_, fun x => ?_, ?_, ?_, fun x hx => ?_, fun r' hopen' => ?_⟩
  · rw [hlast]
    by_cases hr' : r' = r
    · rw [hr', hstatus]
      exact htells
    · rw [close_status_of_ne a r hr']
      refine (h.tells r').mono (hother r' hr') (by rw [hroutes]) fun x hx => ?_
      have hne : x ≠ a.last r := by
        rintro rfl
        exact hr' (h.sole r' r _ hx hself.2.2)
      rw [hlive, Finset.mem_erase, and_iff_right hne]
  · rw [hnext, h.next, hclose]
  · rw [hlive, Finset.mem_erase, h.live_iff, Abstract.Open, Abstract.Open, hlast, hlost]
    constructor
    · rintro ⟨hne, hx | ⟨r', hopen', rfl⟩⟩
      · exact .inl hx
      · refine .inr ⟨r', (hopened r').mpr ⟨?_, hopen'⟩, rfl⟩
        rintro rfl
        exact hne rfl
    · rintro (hx | ⟨r', hopen', rfl⟩)
      · refine ⟨?_, .inl hx⟩
        rintro rfl
        exact h.not_lost r hopen hx
      · obtain ⟨hr', hopen'⟩ := (hopened r').mp hopen'
        exact ⟨h.last_ne hopen hopen' hr', .inr ⟨r', hopen', rfl⟩⟩
  · rw [hroutes]
    exact h.sole
  · rw [hroutes, hnext]
    exact h.old
  · rw [hlive] at hx
    rw [hnext]
    exact h.live_old x (Finset.mem_of_mem_erase hx)
  · rw [hlast, hlost]
    exact h.not_lost r' ((hopened r').mp hopen').2

/-- The pointer of a router that can be passed on. -/
theorem conn_of_usable (h : Follows s a) (husable : (a.status r).Usable) :
    (a.status r = .opened ∧ a.last r ∈ s.live ∧ s.conn r = .to (a.last r)) ∨
      (a.status r ≠ .opened ∧ s.conn r = .null) := by
  have htells := h.tells r
  rcases husable with hst | hst | hst
  · rw [hst] at htells
    exact .inl ⟨hst, htells.1, htells.2.1⟩
  · rw [hst] at htells
    exact .inr ⟨by rw [hst]; nofun, htells.2.1⟩
  · rw [hst] at htells
    exact .inr ⟨by rw [hst]; nofun, htells.1⟩

theorem close_of_not_opened (hnot : a.status r ≠ .opened) (st : Status) : a.close r st = a :=
  if_neg hnot

/-- `mysql_close` with the pointer of a router that can be passed on. -/
theorem mysqlClose_of_usable (h : Follows s a) (husable : (a.status r).Usable) :
    ∃ s', mysqlClose s (s.conn r) = some s' ∧ Follows s' (a.close r .dangling) := by
  rcases conn_of_usable h husable with ⟨hopen, hx, hc⟩ | ⟨hnot, hc⟩
  · have hr := h.tells r
    rw [hopen] at hr
    refine ⟨{ s with live := s.live.erase (a.last r) }, ?_, follows_erase h hopen nofun rfl rfl rfl
      (fun _ _ => rfl) ⟨Finset.notMem_erase _ _, hc, hr.2.2⟩⟩
    rw [hc, mysqlClose, if_pos hx]
  · refine ⟨s, by rw [hc]; rfl, ?_⟩
    rw [close_of_not_opened hnot]
    exact h

/-- `close_rwsplit` with a pointer that can be passed on. -/
theorem close_of_usable (h : Follows s a) (husable : (a.status r).Usable) :
    ∃ s', close s r = some s' ∧ Follows s' (a.close r .closed) := by
  rcases conn_of_usable h husable with ⟨hopen, hx, hc⟩ | ⟨hnot, hc⟩
  · have hr := h.tells r
    rw [hopen] at hr
    refine ⟨{ s with
        live := s.live.erase (a.last r)
        conn := Function.update s.conn r .null }, ?_, follows_erase h hopen nofun rfl rfl rfl
      (fun _ hr' => Function.update_of_ne hr' _ _)
      ⟨Finset.notMem_erase _ _, Function.update_self _ _ _, hr.2.2⟩⟩
    rw [close, hc, mysqlClose, if_pos hx]
    rfl
  · refine ⟨s, ?_, by rw [close_of_not_opened hnot]; exact h⟩
    rw [close, hc]
    show some { s with conn := Function.update s.conn r .null } = some s
    rw [← hc, Function.update_eq_self]

/-- A pointer that can be passed on. -/
theorem executeQuery_of_usable (h : Follows s a) (husable : (a.status r).Usable) :
    executeQuery s (s.conn r) = some s := by
  rcases conn_of_usable h husable with ⟨-, hx, hc⟩ | ⟨-, hc⟩
  · rw [hc, executeQuery, if_pos hx]
  · rw [hc, executeQuery]

/-- A pointer that cannot be passed on: it has not been written, or its connection is closed. -/
theorem conn_of_not_usable (h : Follows s a) (hnot : ¬ (a.status r).Usable) :
    s.conn r = .unset ∨ ∃ x ∉ s.live, s.conn r = .to x := by
  have htells := h.tells r
  cases hst : a.status r with
  | unset =>
    rw [hst] at htells
    exact .inl htells.1
  | failed => exact absurd (.inr (.inr hst)) hnot
  | opened => exact absurd (.inl hst) hnot
  | closed => exact absurd (.inr (.inl hst)) hnot
  | dangling =>
    rw [hst] at htells
    exact .inr ⟨_, htells.1, htells.2.1⟩

theorem mysqlClose_of_not_usable (h : Follows s a) (hnot : ¬ (a.status r).Usable) :
    mysqlClose s (s.conn r) = none := by
  rcases conn_of_not_usable h hnot with hc | ⟨x, hx, hc⟩
  · rw [hc, mysqlClose]
  · rw [hc, mysqlClose, if_neg hx]

theorem executeQuery_of_not_usable (h : Follows s a) (hnot : ¬ (a.status r).Usable) :
    executeQuery s (s.conn r) = none := by
  rcases conn_of_not_usable h hnot with hc | ⟨x, hx, hc⟩
  · rw [hc, executeQuery]
  · rw [hc, executeQuery, if_neg hx]

/-- The copy of a pointer can be passed on while the connection is open, or was never made. -/
theorem executeQuery_copy (h : Follows s a) :
    executeQuery s (s.routers r) =
      if a.status r = .opened ∨ a.status r = .failed then some s else none := by
  have htells := h.tells r
  cases hst : a.status r with
  | unset =>
    rw [hst] at htells
    rw [htells.2, executeQuery, if_neg (by simp)]
  | failed =>
    rw [hst] at htells
    rw [htells.2, executeQuery, if_pos (by simp)]
  | opened =>
    rw [hst] at htells
    rw [htells.2.2, executeQuery, if_pos htells.1, if_pos (by simp)]
  | closed =>
    rw [hst] at htells
    rw [htells.2.2, executeQuery, if_neg htells.1, if_neg (by simp)]
  | dangling =>
    rw [hst] at htells
    rw [htells.2.2, executeQuery, if_neg htells.1, if_neg (by simp)]

/-- `close_maxscale_connections` is safe when each pointer can be passed on, and only then. -/
theorem closeAll_of_usable (h : Follows s a) (husable : ∀ r, (a.status r).Usable) :
    ∃ s', closeMaxscaleConnections s = some s' ∧ Follows s' a.closeAll := by
  obtain ⟨s₁, hs₁, h₁⟩ := mysqlClose_of_usable h (husable .master)
  have hslave : ((a.close .master .dangling).status .slave).Usable := by
    rw [close_status_of_ne a .master (by decide)]
    exact husable .slave
  obtain ⟨s₂, hs₂, h₂⟩ := mysqlClose_of_usable h₁ hslave
  have hrwsplit :
      (((a.close .master .dangling).close .slave .dangling).status .rwsplit).Usable := by
    rw [close_status_of_ne _ .slave (by decide), close_status_of_ne a .master (by decide)]
    exact husable .rwsplit
  obtain ⟨s₃, hs₃, h₃⟩ := mysqlClose_of_usable h₂ hrwsplit
  refine ⟨s₃, ?_, h₃⟩
  rw [closeMaxscaleConnections, hs₁]
  show (mysqlClose s₁ (s₁.conn .slave)).bind _ = _
  rw [hs₂]
  exact hs₃

theorem closeAll_of_not_usable (h : Follows s a) (hnot : ¬ ∀ r, (a.status r).Usable) :
    closeMaxscaleConnections s = none := by
  have hsame : (a.close .master .dangling).status .slave = a.status .slave :=
    close_status_of_ne a .master (by decide) .dangling
  rw [closeMaxscaleConnections]
  by_cases hmaster : (a.status .master).Usable
  · obtain ⟨s₁, hs₁, h₁⟩ := mysqlClose_of_usable h hmaster
    rw [hs₁]
    show (mysqlClose s₁ (s₁.conn .slave)).bind _ = _
    by_cases hslave : (a.status .slave).Usable
    · obtain ⟨s₂, hs₂, h₂⟩ := mysqlClose_of_usable h₁ (hsame.symm ▸ hslave)
      rw [hs₂]
      refine mysqlClose_of_not_usable h₂ fun hrwsplit => hnot fun r => ?_
      rw [close_status_of_ne _ .slave (by decide), close_status_of_ne a .master (by decide)]
        at hrwsplit
      cases r <;> assumption
    · rw [mysqlClose_of_not_usable h₁ (hsame.symm ▸ hslave)]
      rfl
  · rw [mysqlClose_of_not_usable h hmaster]
    rfl

/-- A query through each pointer is safe when each can be passed on, and only then. -/
theorem queryAll_of_usable (h : Follows s a) (husable : ∀ r, (a.status r).Usable) :
    queryAll s = some s := by
  rw [queryAll, executeQuery_of_usable h (husable .rwsplit)]
  show (executeQuery s (s.conn .master)).bind _ = _
  rw [executeQuery_of_usable h (husable .master)]
  exact executeQuery_of_usable h (husable .slave)

theorem queryAll_of_not_usable (h : Follows s a) (hnot : ¬ ∀ r, (a.status r).Usable) :
    queryAll s = none := by
  rw [queryAll]
  by_cases hrwsplit : (a.status .rwsplit).Usable
  · rw [executeQuery_of_usable h hrwsplit]
    show (executeQuery s (s.conn .master)).bind _ = _
    by_cases hmaster : (a.status .master).Usable
    · rw [executeQuery_of_usable h hmaster]
      refine executeQuery_of_not_usable h fun hslave => hnot fun r => ?_
      cases r <;> assumption
    · rw [executeQuery_of_not_usable h hmaster]
      rfl
  · rw [executeQuery_of_not_usable h hrwsplit]
    rfl

theorem follows_connectAll (h : Follows s a) (granted : Router → Bool) :
    Follows (connectMaxscale s granted) (a.connectAll granted) :=
  follows_connect (follows_connect (follows_connect h .rwsplit _) .master _) .slave _

/-- A connection that has just been made, or failed, can be passed on. -/
theorem connect_usable (a : Abstract) (r : Router) (granted : Bool) :
    ((a.connect r granted).status r).Usable := by
  cases granted with
  | false => exact .inr (.inr (Function.update_self _ _ _))
  | true => exact .inl (Function.update_self _ _ _)

theorem connectAll_usable (a : Abstract) (granted : Router → Bool) (r : Router) :
    ((a.connectAll granted).status r).Usable := by
  unfold Abstract.connectAll
  cases r with
  | slave => exact connect_usable _ _ _
  | master =>
    rw [connect_status_of_ne _ .slave _ (by decide)]
    exact connect_usable _ _ _
  | rwsplit =>
    rw [connect_status_of_ne _ .slave _ (by decide), connect_status_of_ne _ .master _ (by decide)]
    exact connect_usable _ _ _

end Steps

/-! ### The methods -/

/-- A method that is ready is safe, and the states tell what it leaves. -/
theorem perform_of_ready {s : Conns} {a : Abstract} {c : Call} (h : Follows s a)
    (hready : Ready a c) : ∃ s', perform s c = some s' ∧ Follows s' (after a c) := by
  cases c with
  | connect r granted => exact ⟨_, rfl, follows_connect h r granted⟩
  | close r => exact close_of_usable h hready
  | connectMaxscale granted => exact ⟨_, rfl, follows_connectAll h granted⟩
  | closeMaxscaleConnections => exact closeAll_of_usable h hready
  | query r => exact ⟨s, executeQuery_of_usable h hready, h⟩
  | queryCopy r => exact ⟨s, (executeQuery_copy h).trans (if_pos hready), h⟩
  | tryQueryAll => exact ⟨s, queryAll_of_usable h hready, h⟩
  | testMaxscaleConnections => exact ⟨s, queryAll_of_usable h hready, h⟩
  | checkMaxscaleAlive granted =>
    have hconnected := follows_connectAll h granted
    obtain ⟨s', hs', hclosed⟩ := closeAll_of_usable hconnected (connectAll_usable a granted)
    refine ⟨s', ?_, hclosed⟩
    rw [perform, queryAll_of_usable hconnected (connectAll_usable a granted)]
    exact hs'
  | getClientIp granted created =>
    have hconnected := follows_connect h .rwsplit granted
    have husable := connect_usable a .rwsplit granted
    simp only [perform, executeQuery_of_usable hconnected husable, after]
    cases hboth : granted && created with
    | true => exact close_of_usable hconnected husable
    | false => exact ⟨_, rfl, hconnected⟩

/-- A method that is not ready is not safe. -/
theorem perform_of_not_ready {s : Conns} {a : Abstract} {c : Call} (h : Follows s a)
    (hnot : ¬ Ready a c) : perform s c = none := by
  cases c with
  | close r =>
    show (mysqlClose s (s.conn r)).map _ = none
    rw [mysqlClose_of_not_usable h hnot]
    rfl
  | closeMaxscaleConnections => exact closeAll_of_not_usable h hnot
  | query r => exact executeQuery_of_not_usable h hnot
  | queryCopy r => exact (executeQuery_copy h).trans (if_neg hnot)
  | tryQueryAll => exact queryAll_of_not_usable h hnot
  | testMaxscaleConnections => exact queryAll_of_not_usable h hnot
  | _ => exact absurd trivial hnot

/-- **Safe orders.** A run of methods passes on no pointer that has not been written, and none
    whose connection is closed, exactly when each of them is ready in the state of the routers in
    which it comes; the connections that are open after it are those of the routers that are open,
    which their pointers hold, and those that have been written over while they were open. -/
theorem connection_calls_iff (calls : List Call) :
    ((∃ s, tryRun perform Conns.new calls = some s) ↔ StepsHold after Ready Abstract.new calls) ∧
      ∀ s, tryRun perform Conns.new calls = some s →
        let a := run after Abstract.new calls
        (∀ x, x ∈ s.live ↔ x ∈ a.lost ∨ ∃ r, a.status r = .opened ∧ s.conn r = .to x) ∧
          ∀ r, a.status r = .opened → ∃ x, s.conn r = .to x ∧ x ∉ a.lost := by
  have hgood : ∀ s a (c : Call), Follows s a → True → Ready a c →
      ∃ s', perform s c = some s' ∧ Follows s' (after a c) :=
    fun _ _ _ h _ hready => perform_of_ready h hready
  obtain ⟨hiff, hend⟩ := simulated_iff hgood (fun _ _ _ h _ hnot => perform_of_not_ready h hnot)
    follows_new fun _ _ => trivial
  refine ⟨hiff, fun s hrun => ?_⟩
  have hfollows := hend s hrun
  generalize run after Abstract.new calls = a at hfollows
  have hheld : ∀ r, a.status r = .opened → s.conn r = .to (a.last r) := by
    intro r hopen
    have htells := hfollows.tells r
    rw [hopen] at htells
    exact htells.2.1
  refine ⟨fun x => (hfollows.live_iff x).trans (or_congr_right (exists_congr fun r => ?_)),
    fun r hopen => ⟨a.last r, hheld r hopen, hfollows.not_lost r hopen⟩⟩
  refine and_congr_right fun hopen => ?_
  rw [hheld r hopen, Pointer.to.injEq]

/-- `close_maxscale_connections` closes what `check_maxscale_alive` has closed before. -/
example : tryRun perform Conns.new [.checkMaxscaleAlive fun _ => true,
    .closeMaxscaleConnections] = none := by
  rfl

/-- `close_rwsplit` can be called once more. -/
example : (tryRun perform Conns.new [.connectMaxscale fun _ => true, .close .rwsplit,
    .close .rwsplit]).isSome :=
  rfl

end MaxScaleSystemTest.Maxscale
