import MaxScaleSystemTest.Lib.Buffer
import MaxScaleSystemTest.Lib.SystemCalls

namespace MaxScaleSystemTest.Cdc

open CString SystemCalls

/-!
# The CDC connector

The class `CDC::Connection`: a socket to MaxScale's CDC protocol, with authentication,
registration, requests and row reading.  What the system calls of one API call return is
its `Script`; the calls that open, close or write to descriptors are recorded as events.
`Halt` ends an API call that does not come back: it is still waiting for a system call, or
it has written outside a buffer.
-/

/-- `READBUF_SIZE`. -/
abbrev READBUF_SIZE : ℕ := 1024

/-- `OK_RESPONSE`. -/
def OK_RESPONSE : Bytes := ascii "OK\n"

/-- `CLOSE_MSG`. -/
def CLOSE_MSG : Bytes := ascii "CLOSE"

/-- `REGISTER_MSG`, with `CDC_CONNECTOR_VERSION`. -/
def REGISTER_MSG : Bytes := ascii "REGISTER UUID=CDC_CONNECTOR-1.0.0, TYPE="

/-- `REQUEST_MSG`. -/
def REQUEST_MSG : Bytes := ascii "REQUEST-DATA "

/-- `CDC_REQUEST_TYPE_JSON`. -/
def CDC_REQUEST_TYPE_JSON : UInt32 := 1

/-- `CDC_REQUEST_TYPE_AVRO`. -/
def CDC_REQUEST_TYPE_AVRO : UInt32 := 2

/-- A socket descriptor, as the kernel hands it out. -/
abbrev Fd := ℕ

/-- The data of a `CDC::Connection`. -/
structure Connection where
  fd : ℤ
  flags : UInt32
  port : UInt16
  address : Bytes
  user : Bytes
  password : Bytes
  error : Bytes
  schema : Bytes

/-- The constructor. -/
def Connection.new (address : Bytes) (port : UInt16) (user password : Bytes) (flags : UInt32) :
    Connection where
  fd := -1
  flags := flags
  port := port
  address := address
  user := user
  password := password
  error := []
  schema := []

/-- The library functions the connector calls: does `inet_aton` accept an address, the
    texts of `strerror_r`, and `SHA1`. -/
structure Platform where
  inetAton : Bytes → Bool
  strerror : Errno → Bytes
  sha1 : Bytes → Bytes

/-- The platform on the inputs of the examples: one address, one password. -/
def examplePlatform : Platform where
  inetAton address := address == ascii "192.168.122.104"
  strerror e := if e = 111 then ascii "Connection refused" else ascii "Unknown error"
  sha1 _ := [69, 74, 195, 76, 41, 153, 170, 207, 235, 198,
    191, 95, 233, 250, 29, 185, 181, 150, 246, 37]

/-- What the system calls of one API call return, the reads asking for `size` bytes. -/
structure Script (size : ℕ) where
  socket : Except Errno Fd
  connect : Except Errno Unit
  writes : List WriteResult
  reads : List (ReadResult size)

/-- What an API call does to descriptors and to the socket. -/
inductive Event where
  | opened (fd : Fd)
  | closed (fd : ℤ)
  | wrote (bs : Bytes)

/-- An object in the middle of an API call. -/
structure Session (size : ℕ) where
  conn : Connection
  script : Script size
  events : List Event

/-- Why an API call does not come back. -/
inductive Halt where
  | blocked
  | outOfBounds
  deriving DecidableEq

/-! ### System calls -/

/-- `nointr_read`: repeat `read` while it is interrupted. -/
def nointrRead {size : ℕ} (reads : List (ReadResult size)) :
    Option (ReadResult size × List (ReadResult size)) :=
  retry ReadResult.interrupted reads

/-- `nointr_write`: repeat `write` while it is interrupted. -/
def nointrWrite (writes : List WriteResult) : Option (WriteResult × List WriteResult) :=
  retry WriteResult.interrupted writes

section Session

variable {size : ℕ}

/-- Set `m_error`. -/
def Session.fail (s : Session size) (message : Bytes) : Session size :=
  { s with conn := { s.conn with error := message } }

/-- Record an event. -/
def Session.log (s : Session size) (e : Event) : Session size :=
  { s with events := s.events ++ [e] }

/-- Leave the results of later `write`s. -/
def Session.setWrites (s : Session size) (writes : List WriteResult) : Session size :=
  { s with script := { s.script with writes := writes } }

/-- Leave the results of later `read`s. -/
def Session.setReads (s : Session size) (reads : List (ReadResult size)) : Session size :=
  { s with script := { s.script with reads := reads } }

/-- `nointr_write(m_fd, msg, len)`: its result, the bytes taken from the front of `msg`
    recorded. -/
def Session.write (s : Session size) (msg : Bytes) : Except Halt (WriteResult × Session size) :=
  match nointrWrite s.script.writes with
  | none => .error .blocked
  | some (.error e, writes) => .ok (.error e, s.setWrites writes)
  | some (.accepted n, writes) =>
    .ok (.accepted n, (s.setWrites writes).log (.wrote (msg.take n)))

/-- What the next `nointr_write` returns, `none` while it is waiting. -/
def Session.firstWrite (s : Session size) : Option WriteResult :=
  firstAnswer WriteResult.interrupted s.script.writes

/-- What the next `nointr_read` returns, `none` while it is waiting. -/
def Session.firstRead (s : Session size) : Option (ReadResult size) :=
  firstAnswer ReadResult.interrupted s.script.reads

theorem Session.write_of_none {s : Session size} (h : s.firstWrite = none) (msg : Bytes) :
    s.write msg = .error .blocked := by
  have hretry : nointrWrite s.script.writes = none := retry_of_no_answer h
  rw [Session.write, hretry]

theorem Session.write_of_error {s : Session size} {e : Errno}
    (h : s.firstWrite = some (.error e)) :
    ∃ writes, ∀ msg, s.write msg = .ok (.error e, s.setWrites writes) := by
  obtain ⟨writes, hretry⟩ := retry_of_firstAnswer h
  have hretry : nointrWrite s.script.writes = some (.error e, writes) := hretry
  exact ⟨writes, fun msg => by rw [Session.write, hretry]⟩

theorem Session.write_of_accepted {s : Session size} {n : ℕ}
    (h : s.firstWrite = some (.accepted n)) :
    ∃ writes, ∀ msg,
      s.write msg = .ok (.accepted n, (s.setWrites writes).log (.wrote (msg.take n))) := by
  obtain ⟨writes, hretry⟩ := retry_of_firstAnswer h
  have hretry : nointrWrite s.script.writes = some (.accepted n, writes) := hretry
  exact ⟨writes, fun msg => by rw [Session.write, hretry]⟩

end Session

/-! ### Authentication and registration -/

/-- One hexadecimal digit, from `hexconvtab`. -/
def hexconvtab (n : UInt8) : UInt8 := (ascii "0123456789abcdef").getD n.toNat 0

/-- `bin2hex`. -/
def bin2hex (data : Bytes) : Bytes :=
  data.flatMap fun (b : UInt8) => [hexconvtab (b >>> 4), hexconvtab (b &&& 0x0f)]

/-- `generateAuthString`. -/
def generateAuthString (sys : Platform) (user password : Bytes) : Bytes :=
  let digest := sys.sha1 password
  let authStr := user ++ ascii ":"
  bin2hex authStr ++ bin2hex digest

/-- The shape `doAuth` and `doRegistration` share: send a message, read once into a buffer
    on the stack, compare its front with `OK_RESPONSE`.  `stack` is what the buffer holds
    before the read. -/
def handshake (sys : Platform) (msg writeFailed readFailed refused : Bytes)
    (stack : Buffer READBUF_SIZE) (s : Session READBUF_SIZE) :
    Except Halt (Bool × Session READBUF_SIZE) :=
  match s.write msg with
  | .error halt => .error halt
  | .ok (.error e, s) => .ok (false, s.fail (writeFailed ++ sys.strerror e))
  | .ok (.accepted _, s) =>
    match nointrRead s.script.reads with
    | none => .error .blocked
    | some (.error e, reads) =>
      .ok (false, (s.setReads reads).fail (readFailed ++ sys.strerror e))
    | some (.data bs hbs, reads) =>
      -- `memcmp` looks at three bytes, however many have been received
      let buf := stack.fill bs hbs
      if buf.bytes.take OK_RESPONSE.length ≠ OK_RESPONSE then
        -- `buf[bytes] = '\0'`, outside the buffer when the read has filled it
        match buf.set? bs.length 0 with
        | none => .error .outOfBounds
        | some buf => .ok (false, (s.setReads reads).fail (refused ++ buf.cstring))
      else .ok (true, s.setReads reads)

section Handshake

variable (sys : Platform) (msg writeFailed readFailed refused : Bytes)
  {s : Session READBUF_SIZE} {n : ℕ}

/-- Without an answer in the buffer the contents of the stack do not matter. -/
theorem handshake_of_unanswered
    (h : ∀ n bs hbs, s.firstWrite = some (.accepted n) → s.firstRead ≠ some (.data bs hbs)) :
    ∃ r, (∀ stack, handshake sys msg writeFailed readFailed refused stack s = r) ∧
      (r = .error .blocked ∨ ∃ s', r = .ok (false, s')) := by
  match hw : s.firstWrite with
  | none =>
    have hwrite := Session.write_of_none hw msg
    exact ⟨.error .blocked, fun stack => by rw [handshake, hwrite], .inl rfl⟩
  | some (.error e) =>
    obtain ⟨writes, hwrite⟩ := Session.write_of_error hw
    exact ⟨_, fun stack => by rw [handshake, hwrite], .inr ⟨_, rfl⟩⟩
  | some (.accepted n) =>
    obtain ⟨writes, hwrite⟩ := Session.write_of_accepted hw
    -- the buffer is read only behind an answer, which there is none of
    let sent := (s.setWrites writes).log (.wrote (msg.take n))
    match hr : s.firstRead with
    | none =>
      have hread : nointrRead sent.script.reads = none := retry_of_no_answer hr
      refine ⟨.error .blocked, fun stack => ?_, .inl rfl⟩
      rw [handshake, hwrite]
      dsimp only
      rw [hread]
    | some (.error e) =>
      obtain ⟨reads, hread⟩ := retry_of_firstAnswer hr
      have hread : nointrRead sent.script.reads = some (.error e, reads) := hread
      refine ⟨.ok (false, (sent.setReads reads).fail (readFailed ++ sys.strerror e)),
        fun stack => ?_, .inr ⟨_, rfl⟩⟩
      rw [handshake, hwrite]
      dsimp only
      rw [hread]
    | some (.data bs hbs) => exact absurd hr (h n bs hbs hw)

/-- With an answer in the buffer everything depends on the buffer's front. -/
theorem handshake_of_answered {bs : Bytes} {hbs : bs.length ≤ READBUF_SIZE}
    (hw : s.firstWrite = some (.accepted n)) (hr : s.firstRead = some (.data bs hbs)) :
    ∃ writes reads, ∀ stack : Buffer READBUF_SIZE,
      handshake sys msg writeFailed readFailed refused stack s =
        let s' := ((s.setWrites writes).log (.wrote (msg.take n))).setReads reads
        if OK_RESPONSE <+: (stack.fill bs hbs).bytes then .ok (true, s')
        else if bs.length = READBUF_SIZE then .error .outOfBounds
        else .ok (false, s'.fail (refused ++ bs.takeWhile (· ≠ 0))) := by
  obtain ⟨writes, hwrite⟩ := Session.write_of_accepted hw
  obtain ⟨reads, hread⟩ := retry_of_firstAnswer hr
  have hread : nointrRead ((s.setWrites writes).log (.wrote (msg.take n))).script.reads =
      some (.data bs hbs, reads) := hread
  refine ⟨writes, reads, fun stack => ?_⟩
  rw [handshake, hwrite]
  dsimp only
  rw [hread]
  dsimp only
  -- `memcmp` compares the front of the buffer
  by_cases hok : OK_RESPONSE <+: (stack.fill bs hbs).bytes
  · rw [if_pos hok, if_neg (not_not.mpr (List.prefix_iff_eq_take.mp hok).symm)]
  · have htake : (stack.fill bs hbs).bytes.take OK_RESPONSE.length ≠ OK_RESPONSE :=
      fun h => hok (List.prefix_iff_eq_take.mpr h.symm)
    rw [if_neg hok, if_pos htake]
    by_cases hfull : bs.length = READBUF_SIZE
    · have hnone : (stack.fill bs hbs).set? bs.length 0 = none :=
        (Buffer.set?_eq_none_iff ..).mpr hfull.ge
      rw [if_pos hfull, hnone]
    · -- the NUL behind the answer ends the error text
      obtain ⟨buf, hset, hcstring⟩ := Buffer.cstring_fill_set? stack hbs (by omega)
      rw [if_neg hfull, hset]
      dsimp only
      rw [hcstring]

variable {sys msg writeFailed readFailed refused}

/-- A handshake that comes back has changed the error text at most, and has offered its
    message to one write if it has sent anything; it succeeds only if it has. -/
theorem handshake_ok {stack : Buffer READBUF_SIZE} {s' : Session READBUF_SIZE} {ok : Bool}
    (h : handshake sys msg writeFailed readFailed refused stack s = .ok (ok, s')) :
    (∃ error, s'.conn = { s.conn with error := error }) ∧
      (s'.events = s.events ∧ ok = false ∨
        ∃ n, s.firstWrite = some (.accepted n) ∧
          s'.events = s.events ++ [.wrote (msg.take n)]) := by
  match hw : s.firstWrite with
  | none =>
    rw [handshake, Session.write_of_none hw] at h
    cases h
  | some (.error e) =>
    obtain ⟨writes, hwrite⟩ := Session.write_of_error hw
    rw [handshake, hwrite] at h
    cases h
    exact ⟨⟨_, rfl⟩, .inl ⟨rfl, rfl⟩⟩
  | some (.accepted n) =>
    obtain ⟨writes, hwrite⟩ := Session.write_of_accepted hw
    rw [handshake, hwrite] at h
    dsimp only at h
    -- every way back from here has logged the same write
    suffices (∃ error, s'.conn = { s.conn with error := error }) ∧
        s'.events = s.events ++ [.wrote (msg.take n)] from ⟨this.1, .inr ⟨n, rfl, this.2⟩⟩
    split at h
    · cases h
    · cases h
      exact ⟨⟨_, rfl⟩, rfl⟩
    · split at h
      · split at h
        · cases h
        · cases h
          exact ⟨⟨_, rfl⟩, rfl⟩
      · cases h
        exact ⟨⟨_, rfl⟩, rfl⟩

end Handshake

/-- The message `doAuth` sends. -/
def authMessage (sys : Platform) (conn : Connection) : Bytes :=
  generateAuthString sys conn.user conn.password

/-- `Connection::doAuth`. -/
def doAuth (sys : Platform) (stack : Buffer READBUF_SIZE) (s : Session READBUF_SIZE) :
    Except Halt (Bool × Session READBUF_SIZE) :=
  handshake sys (authMessage sys s.conn) (ascii "Failed to write authentication data: ")
    (ascii "Failed to read authentication response: ") (ascii "Authentication failed: ") stack s

/-- The message `doRegistration` sends. -/
def registrationMessage (conn : Connection) : Bytes :=
  let type :=
    if conn.flags &&& CDC_REQUEST_TYPE_JSON ≠ 0 then ascii "JSON"
    else if conn.flags &&& CDC_REQUEST_TYPE_AVRO ≠ 0 then ascii "AVRO"
    else ascii ""
  REGISTER_MSG ++ type

/-- `Connection::doRegistration`. -/
def doRegistration (sys : Platform) (stack : Buffer READBUF_SIZE) (s : Session READBUF_SIZE) :
    Except Halt (Bool × Session READBUF_SIZE) :=
  handshake sys (registrationMessage s.conn) (ascii "Failed to write registration message: ")
    (ascii "Failed to read registration response: ") (ascii "Registration failed: ") stack s

/-! ### Opening and closing -/

/-- The call of `socket` in `createConnection`: its result, good or bad, becomes `m_fd`. -/
def storeSocket (sys : Platform) (s : Session READBUF_SIZE) : Session READBUF_SIZE :=
  match s.script.socket with
  | .error e =>
    -- the failure is noted and `connect` called all the same
    let s := s.fail (ascii "Failed to create socket: " ++ sys.strerror e)
    { s with conn := { s.conn with fd := -1 } }
  | .ok fd => { s.log (.opened fd) with conn := { s.conn with fd := fd } }

/-- What `createConnection` does with the socket: connect, authenticate, register. -/
def connectSocket (sys : Platform) (stack₁ stack₂ : Buffer READBUF_SIZE)
    (s : Session READBUF_SIZE) : Except Halt (Bool × Session READBUF_SIZE) :=
  match s.script.connect with
  | .error e => .ok (false, s.fail (ascii "Failed to connect: " ++ sys.strerror e))
  | .ok () =>
    match doAuth sys stack₁ s with
    | .error halt => .error halt
    | .ok (false, s) => .ok (false, s)
    | .ok (true, s) => doRegistration sys stack₂ s

/-- `Connection::createConnection`; the buffers on the stack of `doAuth` and
    `doRegistration` are `stack₁` and `stack₂`. -/
def createConnection (sys : Platform) (stack₁ stack₂ : Buffer READBUF_SIZE)
    (s : Session READBUF_SIZE) : Except Halt (Bool × Session READBUF_SIZE) :=
  if sys.inetAton s.conn.address then connectSocket sys stack₁ stack₂ (storeSocket sys s)
  else .ok (false, s.fail (ascii "Invalid address: " ++ s.conn.address))

/-- `Connection::closeConnection`; the result of its `nointr_write` is not looked at. -/
def closeConnection {size : ℕ} (s : Session size) : Except Halt (Session size) :=
  if s.conn.fd ≠ -1 then
    match s.write CLOSE_MSG with
    | .error halt => .error halt
    | .ok (_, s) => .ok { s.log (.closed s.conn.fd) with conn := { s.conn with fd := -1 } }
  else .ok s

/-! ### Rows and requests -/

/-- Where the loop of `readRow` stands: still reading, a row, or a failed read, with the
    contents of `dest` and the reads that are left. -/
inductive RowEnd where
  | reading (dest : Bytes)
  | row (dest : Bytes) (rest : List (ReadResult 1))
  | failed (errno : Errno) (dest : Bytes) (rest : List (ReadResult 1))

/-- The loop of `readRow`.  `char buf` is not initialised: where the read delivers nothing,
    its value in the `i`-th turn is whatever `slot i` is. -/
def readRowLoop (slot : ℕ → UInt8) (dest : Bytes) (reads : List (ReadResult 1)) : RowEnd :=
  match _h : nointrRead reads with
  | none => .reading dest
  | some (.error e, rest) => .failed e dest rest
  | some (.data bs _, rest) =>
    -- at the end of the stream `buf` keeps what was in its place
    let buf := bs.headD (slot 0)
    if buf = nl then .row dest rest
    else readRowLoop (fun i => slot (i + 1)) (dest ++ [buf]) rest
termination_by reads.length
decreasing_by exact (retry_eq_some _h).2

/-- `Connection::readRow`, with `dest` afterwards. -/
def readRow (sys : Platform) (slot : ℕ → UInt8) (dest : Bytes) (s : Session 1) :
    Except Halt (Bool × Bytes × Session 1) :=
  match readRowLoop slot dest s.script.reads with
  | .reading _ => .error .blocked
  | .row dest reads => .ok (true, dest, s.setReads reads)
  | .failed e dest reads =>
    .ok (false, dest, (s.setReads reads).fail (ascii "Failed to read row: " ++ sys.strerror e))

/-- The message `requestData` sends. -/
def requestMessage (table gtid : Bytes) : Bytes :=
  REQUEST_MSG ++ table ++ if gtid.length ≠ 0 then ascii " " ++ gtid else []

/-- `Connection::requestData`. -/
def requestData (sys : Platform) (slot : ℕ → UInt8) (table gtid : Bytes) (s : Session 1) :
    Except Halt (Bool × Session 1) :=
  match s.write (requestMessage table gtid) with
  | .error halt => .error halt
  | .ok (.error e, s) => .ok (false, s.fail (ascii "Failed to write request: " ++ sys.strerror e))
  | .ok (.accepted _, s) =>
    -- read the Avro schema
    match readRow sys slot s.conn.schema s with
    | .error halt => .error halt
    | .ok (ok, schema, s) => .ok (ok, { s with conn := { s.conn with schema := schema } })

end MaxScaleSystemTest.Cdc
