import MaxScaleSystemTest.Cdc.Rows
import MaxScaleSystemTest.Maxinfo.Socket

namespace MaxScaleSystemTest.Cdc

open CString SystemCalls

/-!
# Delivery of the requests

`doAuth`, `doRegistration` and `requestData` hand their message to one `nointr_write`, which
may take less than it is offered; `send_so` of the MaxInfo client goes on until everything
is sent (`send_so_delivers`).

* `requests_delivered_iff` — success means delivery exactly when the write is not short;
* `short_write_accepted` — half of a registration passes.
-/

/-- The bytes handed to the socket, in order. -/
def written (events : List Event) : Bytes :=
  events.flatMap fun
    | .wrote bs => bs
    | _ => []

theorem written_append (l₁ l₂ : List Event) : written (l₁ ++ l₂) = written l₁ ++ written l₂ :=
  List.flatMap_append

@[simp] theorem written_wrote (bs : Bytes) : written [.wrote bs] = bs := by simp [written]

/-- Whatever the reads and the uninitialised variables `x` of the call, success means that
    `msg`, and nothing else, was handed over behind what had been sent `before`. -/
def DeliveredWhenSuccessful {ι : Type} {size : ℕ} (call : ι → Except Halt (Bool × Session size))
    (before : List Event) (msg : Bytes) : Prop :=
  ∀ x s', call x = .ok (true, s') → written s'.events = written before ++ msg

/-- The write that sends `msg` is not short. -/
def NoShortWrite {size : ℕ} (s : Session size) (msg : Bytes) : Prop :=
  ∀ n, s.firstWrite = some (.accepted n) → msg.length ≤ n

/-- Handing over the first `n` bytes of a message is handing it over whole exactly when
    `n` is no less than its length. -/
theorem written_take_iff (before : List Event) (msg : Bytes) (n : ℕ) :
    written (before ++ [.wrote (msg.take n)]) = written before ++ msg ↔ msg.length ≤ n := by
  rw [written_append, written_wrote, List.append_right_inj]
  constructor
  · intro h
    have hlen := congrArg List.length h
    rw [List.length_take] at hlen
    omega
  · exact List.take_of_length_le

/-- A call that, when it succeeds, has offered `msg` to one write, and that can succeed
    whatever that write takes, delivers exactly without a short write. -/
theorem delivered_iff {ι : Type} {size : ℕ} {call : ι → Except Halt (Bool × Session size)}
    {s : Session size} {msg : Bytes}
    (hone : ∀ x s', call x = .ok (true, s') → ∃ n, s.firstWrite = some (.accepted n) ∧
      s'.events = s.events ++ [.wrote (msg.take n)])
    (hcan : ∀ n, s.firstWrite = some (.accepted n) → ∃ x s', call x = .ok (true, s')) :
    DeliveredWhenSuccessful call s.events msg ↔ NoShortWrite s msg := by
  constructor
  · intro h n hn
    obtain ⟨x, s', hcall⟩ := hcan n hn
    obtain ⟨m, hm, hevents⟩ := hone x s' hcall
    have hnm : n = m := by
      rw [hn] at hm
      cases hm
      rfl
    have hwritten := h x s' hcall
    rw [hevents, ← hnm] at hwritten
    exact (written_take_iff s.events msg n).mp hwritten
  · intro h x s' hcall
    obtain ⟨n, hn, hevents⟩ := hone x s' hcall
    rw [hevents]
    exact (written_take_iff s.events msg n).mpr (h n hn)

/-! ### The three callers -/

/-- `doAuth`, by its reads and the contents of the stack. -/
def authCall (sys : Platform) (s : Session READBUF_SIZE)
    (x : List (ReadResult READBUF_SIZE) × Buffer READBUF_SIZE) :
    Except Halt (Bool × Session READBUF_SIZE) :=
  doAuth sys x.2 (s.setReads x.1)

/-- `doRegistration`, by its reads and the contents of the stack. -/
def registrationCall (sys : Platform) (s : Session READBUF_SIZE)
    (x : List (ReadResult READBUF_SIZE) × Buffer READBUF_SIZE) :
    Except Halt (Bool × Session READBUF_SIZE) :=
  doRegistration sys x.2 (s.setReads x.1)

/-- `requestData`, by its reads and the values of its local variable. -/
def requestCall (sys : Platform) (table gtid : Bytes) (s : Session 1)
    (x : List (ReadResult 1) × (ℕ → UInt8)) : Except Halt (Bool × Session 1) :=
  requestData sys x.2 table gtid (s.setReads x.1)

/-- The shared body of the handshakes delivers exactly without a short write. -/
theorem handshake_delivered_iff (sys : Platform) (msg writeFailed readFailed refused : Bytes)
    (s : Session READBUF_SIZE) :
    DeliveredWhenSuccessful
        (fun x : List (ReadResult READBUF_SIZE) × Buffer READBUF_SIZE =>
          handshake sys msg writeFailed readFailed refused x.2 (s.setReads x.1))
        s.events msg ↔ NoShortWrite s msg := by
  apply delivered_iff
  · intro x s' hcall
    obtain ⟨-, hnot | hwrite⟩ := handshake_ok hcall
    · exact absurd hnot.2 (by decide)
    · exact hwrite
  · intro n hn
    -- the server approves with the first read
    let reads : List (ReadResult READBUF_SIZE) := [.data OK_RESPONSE (by decide)]
    obtain ⟨writes, rest, hcall⟩ := handshake_of_answered sys msg writeFailed readFailed refused
      (s := s.setReads reads) hn rfl
    have hok := hcall (Buffer.zero READBUF_SIZE)
    have hfront : OK_RESPONSE <+: ((Buffer.zero READBUF_SIZE).fill OK_RESPONSE (by decide)).bytes :=
      List.prefix_append ..
    rw [if_pos hfront] at hok
    exact ⟨(reads, Buffer.zero READBUF_SIZE), _, hok⟩

theorem readRow_events {sys : Platform} {slot : ℕ → UInt8} {dest dest' : Bytes} {ok : Bool}
    {s s' : Session 1} (h : readRow sys slot dest s = .ok (ok, dest', s')) :
    s'.events = s.events := by
  rw [readRow] at h
  split at h <;> cases h <;> rfl

/-- `requestData` offers its message to one write. -/
theorem requestData_ok {sys : Platform} {slot : ℕ → UInt8} {table gtid : Bytes}
    {s s' : Session 1} (h : requestData sys slot table gtid s = .ok (true, s')) :
    ∃ n, s.firstWrite = some (.accepted n) ∧
      s'.events = s.events ++ [.wrote ((requestMessage table gtid).take n)] := by
  match hw : s.firstWrite with
  | none =>
    rw [requestData, Session.write_of_none hw] at h
    cases h
  | some (.error e) =>
    obtain ⟨writes, hwrite⟩ := Session.write_of_error hw
    rw [requestData, hwrite] at h
    cases h
  | some (.accepted n) =>
    obtain ⟨writes, hwrite⟩ := Session.write_of_accepted hw
    rw [requestData, hwrite] at h
    dsimp only at h
    split at h
    · cases h
    · rename_i ok schema s₁ hrow
      cases h
      exact ⟨n, rfl, readRow_events hrow⟩

theorem requestData_delivered_iff (sys : Platform) (table gtid : Bytes) (s : Session 1) :
    DeliveredWhenSuccessful (requestCall sys table gtid s) s.events (requestMessage table gtid) ↔
      NoShortWrite s (requestMessage table gtid) := by
  apply delivered_iff
  · intro x s' hcall
    exact requestData_ok (s := s.setReads x.1) hcall
  · intro n hn
    -- the schema is an empty line
    have hn' : (s.setReads [byteRead nl]).firstWrite = some (.accepted n) := hn
    obtain ⟨writes, hwrite⟩ := Session.write_of_accepted hn'
    let sent := ((s.setReads [byteRead nl]).setWrites writes).log
      (.wrote ((requestMessage table gtid).take n))
    have hans : answers ReadResult.interrupted sent.script.reads =
        ([] ++ nl :: []).map byteRead ++ [] := rfl
    obtain ⟨s', hrow, -⟩ :=
      readRow_record sys (fun _ => 0) sent.conn.schema List.not_mem_nil hans
    refine ⟨([byteRead nl], fun _ => 0),
      ⟨{ s'.conn with schema := sent.conn.schema ++ [] }, s'.script, s'.events⟩, ?_⟩
    rw [requestCall, requestData, hwrite]
    dsimp only
    rw [hrow]

/-- **One write is taken for the whole message.** Authentication, registration and requests
    that succeed have handed over every byte of their message exactly when the write that
    sends it is not short. -/
theorem requests_delivered_iff (sys : Platform) (s : Session READBUF_SIZE) (r : Session 1)
    (table gtid : Bytes) :
    (DeliveredWhenSuccessful (authCall sys s) s.events (authMessage sys s.conn) ↔
      NoShortWrite s (authMessage sys s.conn)) ∧
    (DeliveredWhenSuccessful (registrationCall sys s) s.events (registrationMessage s.conn) ↔
      NoShortWrite s (registrationMessage s.conn)) ∧
    (DeliveredWhenSuccessful (requestCall sys table gtid r) r.events (requestMessage table gtid) ↔
      NoShortWrite r (requestMessage table gtid)) :=
  ⟨handshake_delivered_iff sys (authMessage sys s.conn) _ _ _ s,
    handshake_delivered_iff sys (registrationMessage s.conn) _ _ _ s,
    requestData_delivered_iff sys table gtid r⟩

/-- An object whose socket takes 20 bytes of the next message. -/
def slowSocket : Session READBUF_SIZE where
  conn := { Connection.new (ascii "192.168.122.104") 4001 (ascii "skysql") (ascii "skysql")
              CDC_REQUEST_TYPE_JSON with fd := 5 }
  script := ⟨.ok 5, .ok (), [.accepted 20], []⟩
  events := []

/-- Half of a registration passes for a registration. -/
theorem short_write_accepted :
    ¬ DeliveredWhenSuccessful (registrationCall examplePlatform slowSocket) slowSocket.events
      (registrationMessage slowSocket.conn) := by
  intro h
  let reads : List (ReadResult READBUF_SIZE) := [.data OK_RESPONSE (by decide)]
  obtain ⟨s', hcall, hevents⟩ : ∃ s', registrationCall examplePlatform slowSocket
      (reads, Buffer.zero READBUF_SIZE) = .ok (true, s') ∧
        s'.events = [.wrote (REGISTER_MSG.take 20)] := ⟨_, rfl, rfl⟩
  have hwritten := h _ _ hcall
  rw [hevents] at hwritten
  exact absurd hwritten (by decide)

end MaxScaleSystemTest.Cdc
