import MaxScaleSystemTest.Cdc.Connection

namespace MaxScaleSystemTest.Cdc

open CString SystemCalls

/-!
# The lifetime of a connection object

The owner of a `CDC::Connection` calls `createConnection` and `closeConnection` in any
order and then destroys the object, which closes it.

* `lifetime` — the calls and the destructor, with what the object does to descriptors;
* `create_ok`, `create_refused`, `close_ok` — what one call does, wherever it fails.
-/

/-- A call on the object by its owner, with what the system calls in it return. -/
inductive Op where
  | create (script : Script READBUF_SIZE) (stack₁ stack₂ : Buffer READBUF_SIZE)
  | close (script : Script READBUF_SIZE)

/-- An object and what it has done to descriptors so far. -/
structure Object where
  conn : Connection
  events : List Event

/-- An object that has just been constructed. -/
def Object.new (address : Bytes) (port : UInt16) (user password : Bytes) (flags : UInt32) :
    Object :=
  ⟨Connection.new address port user password flags, []⟩

/-- One call. -/
def Op.call (sys : Platform) (o : Object) : Op → Except Halt Object
  -- the result of `createConnection` is the caller's business
  | .create script stack₁ stack₂ =>
    match createConnection sys stack₁ stack₂ ⟨o.conn, script, o.events⟩ with
    | .error halt => .error halt
    | .ok (_, s) => .ok ⟨s.conn, s.events⟩
  | .close script =>
    match closeConnection ⟨o.conn, script, o.events⟩ with
    | .error halt => .error halt
    | .ok s => .ok ⟨s.conn, s.events⟩

/-- The calls of the owner, one after the other. -/
def calls (sys : Platform) : List Op → Object → Except Halt Object
  | [], o => .ok o
  | op :: ops, o =>
    match op.call sys o with
    | .error halt => .error halt
    | .ok o => calls sys ops o

/-- A whole lifetime: the calls of the owner and the destructor. -/
def lifetime (sys : Platform) (ops : List Op) (last : Script READBUF_SIZE) (o : Object) :
    Except Halt Object :=
  match calls sys ops o with
  | .error halt => .error halt
  | .ok o => (Op.close last).call sys o

/-! ### What one call does -/

/-- The second session is the first after some more `write`s. -/
def OnlyWrites (s s' : Session READBUF_SIZE) : Prop :=
  s'.conn.fd = s.conn.fd ∧ s'.conn.address = s.conn.address ∧
    ∃ sent : List Bytes, s'.events = s.events ++ sent.map .wrote

theorem OnlyWrites.trans {s₁ s₂ s₃ : Session READBUF_SIZE} (h₁ : OnlyWrites s₁ s₂)
    (h₂ : OnlyWrites s₂ s₃) : OnlyWrites s₁ s₃ := by
  obtain ⟨hfd₁, haddr₁, sent₁, hsent₁⟩ := h₁
  obtain ⟨hfd₂, haddr₂, sent₂, hsent₂⟩ := h₂
  refine ⟨hfd₂.trans hfd₁, haddr₂.trans haddr₁, sent₁ ++ sent₂, ?_⟩
  rw [hsent₂, hsent₁, List.map_append, List.append_assoc]

/-- A handshake leaves the descriptors alone. -/
theorem handshake_onlyWrites {sys : Platform} {msg writeFailed readFailed refused : Bytes}
    {stack : Buffer READBUF_SIZE} {s s' : Session READBUF_SIZE} {ok : Bool}
    (h : handshake sys msg writeFailed readFailed refused stack s = .ok (ok, s')) :
    OnlyWrites s s' := by
  obtain ⟨⟨error, hconn⟩, hevents⟩ := handshake_ok h
  refine ⟨by rw [hconn], by rw [hconn], ?_⟩
  rcases hevents with ⟨hsame, -⟩ | ⟨n, -, hsent⟩
  · exact ⟨[], by rw [hsame]; simp⟩
  · exact ⟨[_], hsent⟩

/-- Wherever it fails, what follows the call of `socket` leaves the descriptors alone. -/
theorem connectSocket_onlyWrites {sys : Platform} {stack₁ stack₂ : Buffer READBUF_SIZE}
    {s s' : Session READBUF_SIZE} {ok : Bool}
    (h : connectSocket sys stack₁ stack₂ s = .ok (ok, s')) : OnlyWrites s s' := by
  rw [connectSocket] at h
  split at h
  · cases h
    exact ⟨rfl, rfl, [], by simp [Session.fail]⟩
  · split at h
    · cases h
    · rename_i s₁ hauth
      cases h
      exact handshake_onlyWrites hauth
    · rename_i s₁ hauth
      exact (handshake_onlyWrites hauth).trans (handshake_onlyWrites h)

/-- `createConnection` with an address that is accepted stores the result of `socket`. -/
theorem create_ok {sys : Platform} {o o' : Object} {script : Script READBUF_SIZE}
    {stack₁ stack₂ : Buffer READBUF_SIZE} (haddr : sys.inetAton o.conn.address = true)
    (h : (Op.create script stack₁ stack₂).call sys o = .ok o') :
    o'.conn.address = o.conn.address ∧ ∃ sent : List Bytes,
      ((∃ fd, script.socket = .ok fd ∧ o'.conn.fd = fd ∧
          o'.events = o.events ++ [.opened fd] ++ sent.map .wrote) ∨
        ∃ e, script.socket = .error e ∧ o'.conn.fd = -1 ∧
          o'.events = o.events ++ sent.map .wrote) := by
  simp only [Op.call, createConnection, haddr, if_true] at h
  split at h
  · cases h
  · rename_i ok s' hconnect
    cases h
    obtain ⟨hfd, haddress, sent, hsent⟩ := connectSocket_onlyWrites hconnect
    show s'.conn.address = o.conn.address ∧ ∃ sent : List Bytes,
      ((∃ fd, script.socket = .ok fd ∧ s'.conn.fd = fd ∧
          s'.events = o.events ++ [.opened fd] ++ sent.map .wrote) ∨
        ∃ e, script.socket = .error e ∧ s'.conn.fd = -1 ∧ s'.events = o.events ++ sent.map .wrote)
    rw [hfd, haddress, hsent, storeSocket]
    -- `m_fd` is set whether or not there is a socket
    cases script.socket with
    | ok fd => exact ⟨rfl, sent, .inl ⟨fd, rfl, rfl, rfl⟩⟩
    | error e => exact ⟨rfl, sent, .inr ⟨e, rfl, rfl, rfl⟩⟩

/-- `createConnection` with an address that is not accepted leaves the descriptors alone. -/
theorem create_refused {sys : Platform} {o o' : Object} {script : Script READBUF_SIZE}
    {stack₁ stack₂ : Buffer READBUF_SIZE} (haddr : sys.inetAton o.conn.address = false)
    (h : (Op.create script stack₁ stack₂).call sys o = .ok o') :
    o'.conn.address = o.conn.address ∧ o'.conn.fd = o.conn.fd ∧ o'.events = o.events := by
  simp only [Op.call, createConnection, haddr] at h
  cases h
  exact ⟨rfl, rfl, rfl⟩

/-- `closeConnection` closes what `m_fd` names, if it names a descriptor. -/
theorem close_ok {sys : Platform} {o o' : Object} {script : Script READBUF_SIZE}
    (h : (Op.close script).call sys o = .ok o') :
    o'.conn.address = o.conn.address ∧ o'.conn.fd = -1 ∧
      ((o.conn.fd = -1 ∧ o'.events = o.events) ∨
        (o.conn.fd ≠ -1 ∧ ∃ sent : List Bytes,
          o'.events = o.events ++ sent.map .wrote ++ [.closed o.conn.fd])) := by
  simp only [Op.call, closeConnection] at h
  by_cases hfd : o.conn.fd = -1
  · rw [if_neg (not_not.mpr hfd)] at h
    cases h
    exact ⟨rfl, hfd, .inl ⟨hfd, rfl⟩⟩
  · -- the outcome of the write is not looked at
    rw [if_pos hfd] at h
    let s : Session READBUF_SIZE := ⟨o.conn, script, o.events⟩
    match hw : s.firstWrite with
    | none =>
      rw [Session.write_of_none hw] at h
      cases h
    | some (.error e) =>
      obtain ⟨writes, hwrite⟩ := Session.write_of_error hw
      rw [hwrite] at h
      cases h
      exact ⟨rfl, rfl, .inr ⟨hfd, [], by simp [s, Session.log, Session.setWrites]⟩⟩
    | some (.accepted n) =>
      obtain ⟨writes, hwrite⟩ := Session.write_of_accepted hw
      rw [hwrite] at h
      cases h
      exact ⟨rfl, rfl, .inr ⟨hfd, [CLOSE_MSG.take n], rfl⟩⟩

/-- No call changes the address. -/
theorem call_address {sys : Platform} {o o' : Object} {op : Op} (h : op.call sys o = .ok o') :
    o'.conn.address = o.conn.address := by
  cases op with
  | create script stack₁ stack₂ =>
    by_cases haddr : sys.inetAton o.conn.address = true
    · exact (create_ok haddr h).1
    · exact (create_refused (by simpa using haddr) h).1
  | close script => exact (close_ok h).1

/-! ### What several calls do -/

theorem lifetime_ok {sys : Platform} {ops : List Op} {last : Script READBUF_SIZE} {o o' : Object}
    (h : lifetime sys ops last o = .ok o') :
    ∃ o₁, calls sys ops o = .ok o₁ ∧ (Op.close last).call sys o₁ = .ok o' := by
  rw [lifetime] at h
  split at h
  · cases h
  · rename_i o₁ hcalls
    exact ⟨o₁, hcalls, h⟩

/-- With an address that is not accepted nothing is ever opened. -/
theorem calls_refused {sys : Platform} {ops : List Op} {o o' : Object}
    (haddr : sys.inetAton o.conn.address = false) (hfd : o.conn.fd = -1)
    (h : calls sys ops o = .ok o') : o'.conn.fd = -1 ∧ o'.events = o.events := by
  induction ops generalizing o with
  | nil =>
    cases h
    exact ⟨hfd, rfl⟩
  | cons op ops ih =>
    rw [calls] at h
    split at h
    · cases h
    · rename_i o₁ hcall
      have haddr₁ : sys.inetAton o₁.conn.address = false := by rw [call_address hcall, haddr]
      have hsame : o₁.conn.fd = -1 ∧ o₁.events = o.events := by
        cases op with
        | create script stack₁ stack₂ =>
          obtain ⟨-, hfd₁, hevents⟩ := create_refused haddr hcall
          exact ⟨hfd₁.trans hfd, hevents⟩
        | close script =>
          obtain ⟨-, hfd₁, ⟨-, hevents⟩ | ⟨hopen, -⟩⟩ := close_ok hcall
          · exact ⟨hfd₁, hevents⟩
          · exact absurd hfd hopen
      obtain ⟨hfd', hevents'⟩ := ih haddr₁ hsame.1 h
      exact ⟨hfd', hevents'.trans hsame.2⟩

end MaxScaleSystemTest.Cdc
