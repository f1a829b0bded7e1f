import MaxScaleSystemTest.Cdc.Lifetime
import MaxScaleSystemTest.Lib.Ledger
import Mathlib.Data.List.Induction

namespace MaxScaleSystemTest.Cdc

open CString SystemCalls Ledger

/-!
# The sockets of a connection over its lifetime

`createConnection` stores the new socket over `m_fd`, whatever `m_fd` held.

* `Books` — what the object holds, told from `m_fd` and the sockets lost so far;
* `held_of_lifetime` — in the end as many sockets are left open as there were calls of
  `createConnection` over an open one (`leaks`);
* `descriptors_disciplined_iff` — the descriptors are kept in order exactly when there was
  no such call.
-/

/-! ### What it means to keep descriptors in order -/

/-- The ledger entry of an event. -/
def Event.action : Event → Option (Action ℤ)
  | .opened fd => some (.acquire fd)
  | .closed fd => some (.release fd)
  | .wrote _ => none

/-- The ledger of the object's descriptors. -/
def ledger (events : List Event) : List (Action ℤ) := events.filterMap Event.action

/-- At every moment the object has closed no descriptor that it did not hold, and holds at
    most one. -/
def AtMostOne (events : List Event) : Prop :=
  ∀ before, before <+: events → ∃ l, held (ledger before) = some l ∧ l.length ≤ 1

/-- The descriptors are kept in order over a lifetime: at most one is held at any time,
    none is held in the end. -/
def Disciplined (events : List Event) : Prop :=
  AtMostOne events ∧ held (ledger events) = some []

/-- The owner does not call `createConnection` over a socket that an earlier one has
    obtained and no `closeConnection` has closed since; `isOpen` says whether there is
    such a socket at the start. -/
def NoReopen : Bool → List Op → Prop
  | _, [] => True
  | isOpen, .create script _ _ :: ops => isOpen = false ∧ NoReopen script.socket.isOk ops
  | _, .close _ :: ops => NoReopen false ops

/-- How many calls of `createConnection` are made over an open socket. -/
def leaks : Bool → List Op → ℕ
  | _, [] => 0
  | isOpen, .create script _ _ :: ops => isOpen.toNat + leaks script.socket.isOk ops
  | _, .close _ :: ops => leaks false ops

theorem leaks_eq_zero_iff (isOpen : Bool) (ops : List Op) :
    leaks isOpen ops = 0 ↔ NoReopen isOpen ops := by
  induction ops generalizing isOpen with
  | nil => simp [leaks, NoReopen]
  | cons op ops ih =>
    cases op with
    | create script stack₁ stack₂ =>
      rw [leaks, NoReopen, Nat.add_eq_zero_iff, ih, Bool.toNat_eq_zero]
    | close script => exact ih false

/-! ### The ledger -/

theorem ledger_append (l₁ l₂ : List Event) : ledger (l₁ ++ l₂) = ledger l₁ ++ ledger l₂ :=
  List.filterMap_append

@[simp] theorem ledger_wrote (sent : List Bytes) : ledger (sent.map .wrote) = [] := by
  simp [ledger, Event.action]

/-! ### The books over a lifetime -/

/-- The books of an object: `m_fd` names a descriptor that is held, unless it is -1, and
    `lost` more are held that nothing names. -/
def Books (o : Object) (isOpen : Bool) (lost : ℕ) : Prop :=
  (isOpen = true ↔ o.conn.fd ≠ -1) ∧
    ∃ l, held (ledger o.events) = some l ∧ (isOpen = true → o.conn.fd ∈ l) ∧
      l.length = lost + isOpen.toNat

theorem books_new (address : Bytes) (port : UInt16) (user password : Bytes) (flags : UInt32) :
    Books (Object.new address port user password flags) false 0 :=
  ⟨by simp [Object.new, Connection.new], [], rfl, by simp, rfl⟩

/-- **Step lemma for `createConnection`.** A socket still open is lost. -/
theorem Books.create {sys : Platform} {o o' : Object} {script : Script READBUF_SIZE}
    {stack₁ stack₂ : Buffer READBUF_SIZE} {isOpen : Bool} {lost : ℕ} (hbooks : Books o isOpen lost)
    (haddr : sys.inetAton o.conn.address = true)
    (h : (Op.create script stack₁ stack₂).call sys o = .ok o') :
    Books o' script.socket.isOk (lost + isOpen.toNat) := by
  obtain ⟨-, l, hheld, -, hlen⟩ := hbooks
  obtain ⟨-, sent, ⟨fd, hsocket, hfd, hevents⟩ | ⟨e, hsocket, hfd, hevents⟩⟩ := create_ok haddr h
  · -- the new descriptor is held besides the old ones
    have hledger : held (ledger o'.events) = some ((fd : ℤ) :: l) := by
      rw [hevents, ledger_append, ledger_wrote, List.append_nil, ledger_append]
      exact held_concat hheld (.acquire fd)
    rw [hsocket]
    refine ⟨⟨fun _ => ?_, fun _ => rfl⟩, _, hledger, fun _ => ?_, ?_⟩
    · rw [hfd]
      omega
    · rw [hfd]
      exact List.mem_cons_self ..
    · show l.length + 1 = lost + isOpen.toNat + 1
      rw [hlen]
  · -- `socket` has failed and `m_fd` no longer names the old descriptor
    have hledger : held (ledger o'.events) = some l := by
      rw [hevents, ledger_append, ledger_wrote, List.append_nil, hheld]
    rw [hsocket]
    exact ⟨by simp [Except.isOk, Except.toBool, hfd], l, hledger,
      by simp [Except.isOk, Except.toBool], hlen⟩

/-- **Step lemma for `closeConnection`.** What `m_fd` names is closed, what is lost stays
    lost. -/
theorem Books.close {sys : Platform} {o o' : Object} {script : Script READBUF_SIZE}
    {isOpen : Bool} {lost : ℕ} (hbooks : Books o isOpen lost)
    (h : (Op.close script).call sys o = .ok o') : Books o' false lost := by
  obtain ⟨hopen, l, hheld, hmem, hlen⟩ := hbooks
  obtain ⟨-, hfd', ⟨hfd, hevents⟩ | ⟨hfd, sent, hevents⟩⟩ := close_ok h
  · have hclosed : isOpen = false := by simpa [hfd] using hopen
    refine ⟨by simp [hfd'], l, by rw [hevents, hheld], by simp, ?_⟩
    rw [hlen, hclosed]
  · have hisOpen : isOpen = true := hopen.mpr hfd
    have hledger : held (ledger o'.events) = some (l.erase o.conn.fd) := by
      rw [hevents, ledger_append, ledger_append, ledger_wrote, List.append_nil]
      exact (held_concat hheld (.release o.conn.fd)).trans (step_release (hmem hisOpen))
    refine ⟨by simp [hfd'], _, hledger, by simp, ?_⟩
    rw [List.length_erase_of_mem (hmem hisOpen), hlen, hisOpen]
    rfl

/-- **Run lemma.** As many sockets are lost as there are calls of `createConnection` over an
    open one. -/
theorem Books.calls {sys : Platform} {ops : List Op} {o o' : Object} {isOpen : Bool} {lost : ℕ}
    (hbooks : Books o isOpen lost) (haddr : sys.inetAton o.conn.address = true)
    (h : calls sys ops o = .ok o') :
    ∃ isOpen', Books o' isOpen' (lost + leaks isOpen ops) := by
  induction ops generalizing o isOpen lost with
  | nil =>
    cases h
    exact ⟨isOpen, hbooks⟩
  | cons op ops ih =>
    rw [Cdc.calls] at h
    split at h
    · cases h
    · rename_i o₁ hcall
      have haddr₁ : sys.inetAton o₁.conn.address = true := by rw [call_address hcall, haddr]
      cases op with
      | create script stack₁ stack₂ =>
        have hrest := ih (hbooks.create haddr hcall) haddr₁ h
        rwa [Nat.add_assoc] at hrest
      | close script => exact ih (hbooks.close hcall) haddr₁ h

/-! ### At every moment -/

theorem AtMostOne.concat {events : List Event} {e : Event} {l : List ℤ} (h : AtMostOne events)
    (hheld : held (ledger (events ++ [e])) = some l) (hlen : l.length ≤ 1) :
    AtMostOne (events ++ [e]) := by
  intro before hbefore
  rcases List.prefix_concat_iff.mp hbefore with rfl | hpre
  · exact ⟨l, hheld, hlen⟩
  · exact h before hpre

/-- Writes do not matter. -/
theorem AtMostOne.writes {events : List Event} (h : AtMostOne events) (sent : List Bytes) :
    AtMostOne (events ++ sent.map .wrote) := by
  induction sent using List.reverseRecOn with
  | nil => simpa using h
  | append_singleton sent bs ih =>
    obtain ⟨l, hheld, hlen⟩ := h events (List.prefix_refl _)
    rw [List.map_append, ← List.append_assoc]
    apply ih.concat (l := l) _ hlen
    have hone : ledger [Event.wrote bs] = [] := rfl
    rw [ledger_append, hone, List.append_nil, ledger_append, ledger_wrote,
      List.append_nil, hheld]

/-- A descriptor is held at most where the books say so. -/
theorem Books.length_le {o : Object} {isOpen : Bool} (h : Books o isOpen 0) :
    ∃ l, held (ledger o.events) = some l ∧ l.length ≤ 1 := by
  obtain ⟨-, l, hheld, -, hlen⟩ := h
  have hle := Bool.toNat_le isOpen
  exact ⟨l, hheld, by omega⟩

/-- **Step lemma.** A call that loses nothing keeps at most one descriptor at every moment. -/
theorem AtMostOne.create {sys : Platform} {o o' : Object} {script : Script READBUF_SIZE}
    {stack₁ stack₂ : Buffer READBUF_SIZE} (hone : AtMostOne o.events) (hbooks : Books o false 0)
    (haddr : sys.inetAton o.conn.address = true)
    (h : (Op.create script stack₁ stack₂).call sys o = .ok o') : AtMostOne o'.events := by
  obtain ⟨l, hheld, hlen⟩ := (hbooks.create haddr h).length_le
  obtain ⟨-, sent, ⟨fd, -, -, hevents⟩ | ⟨e, -, -, hevents⟩⟩ := create_ok haddr h
  · rw [hevents, ledger_append, ledger_wrote, List.append_nil] at hheld
    rw [hevents]
    exact (hone.concat hheld hlen).writes sent
  · rw [hevents]
    exact hone.writes sent

theorem AtMostOne.close {sys : Platform} {o o' : Object} {script : Script READBUF_SIZE}
    {isOpen : Bool} (hone : AtMostOne o.events) (hbooks : Books o isOpen 0)
    (h : (Op.close script).call sys o = .ok o') : AtMostOne o'.events := by
  obtain ⟨l, hheld, hlen⟩ := (hbooks.close h).length_le
  obtain ⟨-, -, ⟨-, hevents⟩ | ⟨-, sent, hevents⟩⟩ := close_ok h
  · rwa [hevents]
  · rw [hevents] at hheld ⊢
    exact (hone.writes sent).concat hheld hlen

/-- **Run lemma.** Without a call of `createConnection` over an open socket, at most one
    descriptor is held at every moment. -/
theorem AtMostOne.calls {sys : Platform} {ops : List Op} {o o' : Object} {isOpen : Bool}
    (hone : AtMostOne o.events) (hbooks : Books o isOpen 0)
    (haddr : sys.inetAton o.conn.address = true) (hops : NoReopen isOpen ops)
    (h : calls sys ops o = .ok o') : AtMostOne o'.events := by
  induction ops generalizing o isOpen with
  | nil =>
    cases h
    exact hone
  | cons op ops ih =>
    rw [Cdc.calls] at h
    split at h
    · cases h
    · rename_i o₁ hcall
      have haddr₁ : sys.inetAton o₁.conn.address = true := by rw [call_address hcall, haddr]
      cases op with
      | create script stack₁ stack₂ =>
        obtain ⟨rfl, hrest⟩ := hops
        exact ih (hone.create hbooks haddr hcall) (hbooks.create haddr hcall) haddr₁ hrest h
      | close script =>
        exact ih (hone.close hbooks hcall) (hbooks.close hcall) haddr₁ hops h

/-! ### Whole lifetimes -/

/-- **What is left open.** In the end as many sockets are open as there were calls of
    `createConnection` over an open one. -/
theorem held_of_lifetime {sys : Platform} {ops : List Op} {last : Script READBUF_SIZE}
    {o o' : Object} (hbooks : Books o false 0) (haddr : sys.inetAton o.conn.address = true)
    (h : lifetime sys ops last o = .ok o') :
    ∃ l, held (ledger o'.events) = some l ∧ l.length = leaks false ops := by
  obtain ⟨o₁, hcalls, hclose⟩ := lifetime_ok h
  obtain ⟨isOpen, hbooks₁⟩ := hbooks.calls haddr hcalls
  obtain ⟨-, l, hheld, -, hlen⟩ := hbooks₁.close hclose
  refine ⟨l, hheld, ?_⟩
  rw [hlen, Nat.zero_add]
  rfl

/-- Before the first call. -/
theorem atMostOne_nil : AtMostOne [] := by
  intro before hbefore
  rw [List.prefix_nil.mp hbefore]
  exact ⟨[], rfl, Nat.zero_le 1⟩

/-- Without a call of `createConnection` over an open socket nothing goes wrong. -/
theorem disciplined_of_noReopen {sys : Platform} {ops : List Op} {last : Script READBUF_SIZE}
    {o o' : Object} (hone : AtMostOne o.events) (hbooks : Books o false 0)
    (haddr : sys.inetAton o.conn.address = true) (hops : NoReopen false ops)
    (h : lifetime sys ops last o = .ok o') : Disciplined o'.events := by
  have hleaks : leaks false ops = 0 := (leaks_eq_zero_iff false ops).mpr hops
  obtain ⟨o₁, hcalls, hclose⟩ := lifetime_ok h
  obtain ⟨isOpen, hbooks₁⟩ := hbooks.calls haddr hcalls
  rw [hleaks] at hbooks₁
  refine ⟨(hone.calls hbooks haddr hops hcalls).close hbooks₁ hclose, ?_⟩
  obtain ⟨l, hheld, hlen⟩ := held_of_lifetime hbooks haddr h
  rw [hleaks] at hlen
  rw [hheld, List.eq_nil_of_length_eq_zero hlen]

/-- With an address that is not accepted nothing is opened and nothing closed. -/
theorem lifetime_refused {sys : Platform} {ops : List Op} {last : Script READBUF_SIZE}
    {o o' : Object} (haddr : sys.inetAton o.conn.address = false) (hfd : o.conn.fd = -1)
    (h : lifetime sys ops last o = .ok o') : o'.events = o.events := by
  obtain ⟨o₁, hcalls, hclose⟩ := lifetime_ok h
  obtain ⟨hfd₁, hevents⟩ := calls_refused haddr hfd hcalls
  obtain ⟨-, -, ⟨-, hsame⟩ | ⟨hopen, -⟩⟩ := close_ok hclose
  · rw [hsame, hevents]
  · exact absurd hfd₁ hopen

/-- **Sockets are leaked by reconnecting only.** Over a lifetime that comes to its end the
    descriptors are kept in order exactly when the address is not accepted, or no
    `createConnection` was called while a socket obtained by an earlier one was open. -/
theorem descriptors_disciplined_iff (sys : Platform) (address : Bytes) (port : UInt16)
    (user password : Bytes) (flags : UInt32) (ops : List Op) (last : Script READBUF_SIZE)
    (o' : Object)
    (h : lifetime sys ops last (Object.new address port user password flags) = .ok o') :
    Disciplined o'.events ↔ sys.inetAton address = false ∨ NoReopen false ops := by
  have hbooks := books_new address port user password flags
  by_cases haddr : sys.inetAton address = true
  · constructor
    · -- nothing left open means that nothing was leaked
      intro hdisc
      obtain ⟨l, hheld, hlen⟩ := held_of_lifetime hbooks haddr h
      rw [hdisc.2] at hheld
      cases hheld
      exact .inr ((leaks_eq_zero_iff false ops).mp hlen.symm)
    · intro hcond
      rcases hcond with hrefused | hops
      · rw [haddr] at hrefused
        cases hrefused
      · exact disciplined_of_noReopen atMostOne_nil hbooks haddr hops h
  · have hrefused : sys.inetAton address = false := by simpa using haddr
    refine ⟨fun _ => .inl hrefused, fun _ => ?_⟩
    rw [lifetime_refused hrefused rfl h]
    exact ⟨atMostOne_nil, rfl⟩

/-- The system calls of a `createConnection` whose `connect` is refused. -/
def refusedOn (fd : Fd) : Script READBUF_SIZE := ⟨.ok fd, .error 111, [], []⟩

/-- The system calls of a `closeConnection`. -/
def closing : Script READBUF_SIZE := ⟨.error 0, .error 0, [.accepted 5], []⟩

/-- The object the callers below use. -/
def client : Object :=
  Object.new (ascii "192.168.122.104") 4001 (ascii "skysql") (ascii "skysql") CDC_REQUEST_TYPE_JSON

/-- A caller that closes the object before it tries to connect again. -/
def retryingClosed : List Op :=
  [.create (refusedOn 5) (Buffer.zero _) (Buffer.zero _), .close closing,
    .create (refusedOn 6) (Buffer.zero _) (Buffer.zero _)]

/-- The characterisation on that caller. -/
theorem retrying_closed_disciplined :
    ∃ o', lifetime examplePlatform retryingClosed closing client = .ok o' ∧
      o'.events = [.opened 5, .wrote CLOSE_MSG, .closed 5,
        .opened 6, .wrote CLOSE_MSG, .closed 6] ∧
      (Disciplined o'.events ↔
        examplePlatform.inetAton (ascii "192.168.122.104") = false ∨ NoReopen false retryingClosed) :=
  ⟨_, rfl, rfl, descriptors_disciplined_iff examplePlatform _ _ _ _ _ retryingClosed closing _ rfl⟩

/-- A caller that just tries again when the server is not up yet. -/
def retrying : List Op :=
  [.create (refusedOn 5) (Buffer.zero _) (Buffer.zero _),
    .create (refusedOn 6) (Buffer.zero _) (Buffer.zero _)]

/-- The socket of the first attempt is never closed. -/
theorem retrying_leaks :
    ∃ o', lifetime examplePlatform retrying closing client = .ok o' ∧
      o'.events = [.opened 5, .opened 6, .wrote CLOSE_MSG, .closed 6] ∧
      ¬ Disciplined o'.events := by
  refine ⟨_, rfl, rfl, fun h => ?_⟩
  have hleft : held (ledger [.opened 5, .opened 6, .wrote CLOSE_MSG, .closed 6]) = some [5] := by
    decide
  exact absurd (hleft.symm.trans h.2) (by decide)

end MaxScaleSystemTest.Cdc
