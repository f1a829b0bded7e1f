import MaxScaleSystemTest.Lib.Decimal
import Mathlib.Logic.Function.Basic

namespace MaxScaleSystemTest.Nodes.ReadEnv

open CString

/-!
# The nodes as the environment describes them

`Mariadb_nodes::read_env` looks up a dozen variables for each node and writes their values, or
defaults, to the fields of the node.

* `nodeVariable_inj` — variables of different nodes or fields have different names;
* `readServer_eq_some_iff` — what one round of the loop writes;
* `readEnv_of_clean`, `clean_of_readEnv` — when every field gets its own value;
* `read_env_apart_iff` — the fields hold their own values or defaults, and are kept apart,
  exactly when no command to stop a node is left to its default and the texts fit.

The name is built in an array of 64 bytes, which the longest one fits, as `prefix` has 15 at
most.
-/

/-- The variables of a node. -/
inductive NodeVar where
  | network
  | privateIp
  | network6
  | port
  | socket
  | keyfile
  | startDbCommand
  | stopDbCommand
  | cleanupDbCommand
  | whoami
  | accessSudo
  deriving DecidableEq

/-- What the name of a variable ends with. -/
def NodeVar.field : NodeVar → Bytes
  | .network => ascii "network"
  | .privateIp => ascii "private_ip"
  | .network6 => ascii "network6"
  | .port => ascii "port"
  | .socket => ascii "socket"
  | .keyfile => ascii "keyfile"
  | .startDbCommand => ascii "start_db_command"
  | .stopDbCommand => ascii "stop_db_command"
  | .cleanupDbCommand => ascii "cleanup_db_command"
  | .whoami => ascii "whoami"
  | .accessSudo => ascii "access_sudo"

/-- The byte `_`. -/
def underscore : UInt8 := 95

/-- `%03d`, for a number that is not negative. -/
def paddedDigits (i : ℕ) : Bytes :=
  List.replicate (3 - (Decimal.ofNat i).length) 48 ++ Decimal.ofNat i

/-- A variable of all nodes, `sprintf(env_name, "%s_…", prefix)`. -/
def globalVariable (pref name : Bytes) : Bytes := pref ++ underscore :: name

/-- A variable of one node, `sprintf(env_name, "%s_%03d_…", prefix, i)`. -/
def nodeVariable (pref : Bytes) (i : ℕ) (v : NodeVar) : Bytes :=
  globalVariable pref (paddedDigits i ++ underscore :: v.field)

/-- The environment, as `getenv` shows it. -/
abbrev Environment := Bytes → Option Bytes

/-- What belongs to one node. -/
structure ServerFields where
  ip : Bytes
  ipPrivate : Bytes
  ip6 : Bytes
  port : ℤ
  socket : Bytes
  socketCmd : Bytes
  sshkey : Bytes
  startDbCommand : Bytes
  stopDbCommand : Bytes
  cleanupDbCommand : Bytes
  accessUser : Bytes
  accessSudo : Bytes
  accessHomedir : Bytes

/-- The part of a `Mariadb_nodes` object that `read_env` writes. -/
structure NodesObject where
  N : ℤ
  userName : Bytes
  password : Bytes
  ssl : Bool
  server : ℕ → ServerFields

/-! ### Reading and writing -/

/-- `sprintf` into an array, which the text and its last byte must fit. -/
def store (size : ℕ) (text : Bytes) : Option Bytes :=
  if text.length < size then some text else none

/-- The number at the front of a text. -/
def number (text : Bytes) : Option ℤ :=
  let (negative, rest) := splitSign (text.dropWhile isspace)
  match rest.takeWhile isdigit with
  | [] => none
  | ds => some (if negative then -digitsValue ds else digitsValue ds)

/-- The number is an `int`. -/
def IsInt (n : ℤ) : Prop := -2 ^ 31 ≤ n ∧ n < 2 ^ 31

instance (n : ℤ) : Decidable (IsInt n) := inferInstanceAs (Decidable (_ ∧ _))

/-- `sscanf(text, "%d", &n)`: without a number `n` keeps its value, and one that is no `int` is
    undefined. -/
def scanInt (text : Bytes) (old : ℤ) : Option ℤ :=
  match number text with
  | none => some old
  | some n => if IsInt n then some n else none

/-- The first word of a text. -/
def word (text : Bytes) : Bytes := (text.dropWhile isspace).takeWhile fun c => !isspace c

/-- `sscanf(text, "%s", array)`: without a word the array keeps its text. -/
def scanWord (size : ℕ) (text old : Bytes) : Option Bytes :=
  if word text = [] then some old else store size (word text)

/-- The lower case of a letter. -/
def toLower (c : UInt8) : UInt8 := if 65 ≤ c && c ≤ 90 then c + 32 else c

/-- `strcasecmp(s, t) == 0`. -/
def sameIgnoringCase (s t : Bytes) : Bool := s.map toLower = t.map toLower

/-! ### `read_env` -/

/-- The text of `access_homedir`. -/
def homedir (user : Bytes) : Bytes :=
  if user = ascii "root" then ascii "/" ++ user ++ ascii "/"
  else ascii "/home/" ++ user ++ ascii "/"

/-- The text of `socket_cmd`. -/
def socketOption (socket : Option Bytes) : Bytes :=
  match socket with
  | some env => ascii "--socket=" ++ env
  | none => ascii " "

section Server

-- `get` looks up the variables of the node, and `old` is what its fields hold before
variable (get : NodeVar → Option Bytes) (old : ServerFields)

/-- The address, which has no default. -/
def readIp : Option Bytes :=
  match get .network with
  | some env => store 1024 env
  | none => some old.ip

/-- The port. -/
def readPort : Option ℤ :=
  match get .port with
  | some env => scanInt env old.port
  | none => some 3306

/-- The commands to start and to stop the node, the first of which is `start` so far; without
    a variable for the second it is the first that is written. -/
def readStopCommand (start : Bytes) : Option (Bytes × Bytes) :=
  match get .stopDbCommand with
  | some env => (store 4096 env).map fun stop => (start, stop)
  | none => (store 4096 (ascii "service mysql stop")).map fun start => (start, old.stopDbCommand)

/-- One round of the loop. -/
def readServer : Option ServerFields := do
  let ip ← readIp get old
  let ipPrivate ← store 1024 ((get .privateIp).getD ip)
  let ip6 ← store 1024 ((get .network6).getD ip)
  let port ← readPort get old
  let socket ← store 1024 ((get .socket).getD (ascii " "))
  let socketCmd ← store 1024 (socketOption (get .socket))
  let sshkey ← store 4096 ((get .keyfile).getD (ascii "vagrant.pem"))
  let start ← store 4096 ((get .startDbCommand).getD (ascii "service mysql start"))
  let (startDbCommand, stopDbCommand) ← readStopCommand get old start
  let cleanupDbCommand ← store 4096 ((get .cleanupDbCommand).getD (ascii " "))
  let accessUser ← store 256 ((get .whoami).getD (ascii "root"))
  let accessSudo ← store 64 ((get .accessSudo).getD (ascii " "))
  let accessHomedir ← store 256 (homedir accessUser)
  return { ip, ipPrivate, ip6, port, socket, socketCmd, sshkey, startDbCommand, stopDbCommand,
           cleanupDbCommand, accessUser, accessSudo, accessHomedir }

end Server

/-- The variables of a node in an environment. -/
def nodeEnv (pref : Bytes) (env : Environment) (i : ℕ) (v : NodeVar) : Option Bytes :=
  env (nodeVariable pref i v)

/-- One round, with the fields of all nodes. -/
def readRound (pref : Bytes) (env : Environment) (server : ℕ → ServerFields) (i : ℕ) :
    Option (ℕ → ServerFields) :=
  (readServer (nodeEnv pref env i) (server i)).map fun new => Function.update server i new

/-- The number of nodes. -/
def readN (pref : Bytes) (env : Environment) (old : ℤ) : Option ℤ :=
  match env (globalVariable pref (ascii "N")) with
  | some text => scanInt text old
  | none => some 0

/-- `user_name` and `password`, which differ in the variable and the field. -/
def readAccount (env : Option Bytes) (old : Bytes) : Option Bytes :=
  match env with
  | some text => scanWord 256 text old
  | none => some (ascii "skysql")

/-- `ssl`. -/
def readSsl (env : Option Bytes) : Bool :=
  match env with
  | some text => sameIgnoringCase text (ascii "yes") || sameIgnoringCase text (ascii "true")
  | none => false

/-- `if ((N > 0) && (N < 255))`, with the loop. -/
def readServers (pref : Bytes) (env : Environment) (N : ℤ) (old : ℕ → ServerFields) :
    Option (ℕ → ServerFields) :=
  if 0 < N ∧ N < 255 then (List.range N.toNat).foldlM (readRound pref env) old else some old

/-- `Mariadb_nodes::read_env`; `old` is what the object's memory holds before. -/
def readEnv (pref : Bytes) (env : Environment) (old : NodesObject) : Option NodesObject := do
  let N ← readN pref env old.N
  let userName ← readAccount (env (globalVariable pref (ascii "user"))) old.userName
  let password ← readAccount (env (globalVariable pref (ascii "password"))) old.password
  let ssl := readSsl (env (globalVariable pref (ascii "ssl")))
  let server ← readServers pref env N old.server
  return { N, userName, password, ssl, server }

/-! ### Names -/

theorem isdigit_of_mem_paddedDigits {i : ℕ} {c : UInt8} (h : c ∈ paddedDigits i) :
    isdigit c = true := by
  rcases List.mem_append.mp h with hzero | hdigit
  · rw [List.eq_of_mem_replicate hzero]
    rfl
  · exact Decimal.isdigit_of_mem_ofNat hdigit

/-- The zeros in front do not count. -/
theorem digitsValue_paddedDigits (i : ℕ) : digitsValue (paddedDigits i) = i := by
  have hzeros : ∀ k, digitsValue (List.replicate k 48 ++ Decimal.ofNat i) = i := by
    intro k
    induction k with
    | zero => exact Decimal.digitsValue_ofNat i
    | succ k ih => exact ih
  exact hzeros _

/-- The digits in front of what is no digit. -/
theorem takeWhile_paddedDigits (i : ℕ) (rest : Bytes) :
    (paddedDigits i ++ underscore :: rest).takeWhile isdigit = paddedDigits i := by
  refine (span_digits (fun c hc => isdigit_of_mem_paddedDigits hc) fun c hc => ?_).1
  obtain rfl : underscore = c := Option.some.inj hc
  rfl

theorem field_injective : Function.Injective NodeVar.field := by
  intro v w h
  cases v <;> cases w <;> first | rfl | exact absurd h (by decide +kernel)

/-- **Names.** Variables of different nodes or fields have different names. -/
theorem nodeVariable_inj {pref : Bytes} {i j : ℕ} {v w : NodeVar} :
    nodeVariable pref i v = nodeVariable pref j w ↔ i = j ∧ v = w := by
  refine ⟨fun h => ?_, fun ⟨hi, hv⟩ => by rw [hi, hv]⟩
  have hname := (List.cons_inj_right _).mp (List.append_cancel_left h)
  have hdigits : paddedDigits i = paddedDigits j := by
    rw [← takeWhile_paddedDigits i v.field, hname, takeWhile_paddedDigits]
  have hvalue := congrArg digitsValue hdigits
  rw [digitsValue_paddedDigits, digitsValue_paddedDigits] at hvalue
  rw [hdigits] at hname
  have hfield := (List.cons_inj_right _).mp (List.append_cancel_left hname)
  exact ⟨Int.ofNat.inj hvalue, field_injective hfield⟩

/-- No variable of a node is one of all nodes. -/
theorem nodeVariable_ne_globalVariable {pref name : Bytes}
    (hname : name.head?.any isdigit = false) (i : ℕ) (v : NodeVar) :
    globalVariable pref name ≠ nodeVariable pref i v := by
  intro h
  have hrest := (List.cons_inj_right _).mp (List.append_cancel_left h)
  obtain ⟨c, cs, hcs⟩ := List.exists_cons_of_ne_nil (l := paddedDigits i) (by
    simp [paddedDigits, Decimal.ofNat_ne_nil])
  have hdigit : isdigit c = true := isdigit_of_mem_paddedDigits (hcs ▸ List.mem_cons_self)
  have hhead : name.head?.any isdigit = true := by
    rw [hrest, hcs]
    exact hdigit
  rw [hname] at hhead
  cases hhead

/-! ### One node -/

/-- Every field holds the value of its own variable, or its own default where that is not set.
    There is no default for the address. -/
structure HoldsOwn (get : NodeVar → Option Bytes) (old new : ServerFields) : Prop where
  ip : new.ip = (get .network).getD old.ip
  ipPrivate : new.ipPrivate = (get .privateIp).getD new.ip
  ip6 : new.ip6 = (get .network6).getD new.ip
  port : ∀ text, get .port = some text → number text = some new.port
  noPort : get .port = none → new.port = 3306
  socket : new.socket = (get .socket).getD (ascii " ")
  socketCmd : new.socketCmd = socketOption (get .socket)
  sshkey : new.sshkey = (get .keyfile).getD (ascii "vagrant.pem")
  startDbCommand : new.startDbCommand = (get .startDbCommand).getD (ascii "service mysql start")
  stopDbCommand : new.stopDbCommand = (get .stopDbCommand).getD (ascii "service mysql stop")
  cleanupDbCommand : new.cleanupDbCommand = (get .cleanupDbCommand).getD (ascii " ")
  accessUser : new.accessUser = (get .whoami).getD (ascii "root")
  accessSudo : new.accessSudo = (get .accessSudo).getD (ascii " ")
  accessHomedir : new.accessHomedir = homedir new.accessUser

/-- A variable that is set has a text shorter than a bound. -/
def Fits (size : ℕ) (env : Option Bytes) : Prop := ∀ text, env = some text → text.length < size

/-- The command to stop the node is set, so is its address or what else would be made of it, the
    port is a number, and all texts fit their arrays. -/
structure CleanServer (get : NodeVar → Option Bytes) : Prop where
  network : Fits 1024 (get .network)
  noNetwork : get .network = none → get .privateIp ≠ none ∧ get .network6 ≠ none
  privateIp : Fits 1024 (get .privateIp)
  network6 : Fits 1024 (get .network6)
  port : ∀ text, get .port = some text → ∃ n, number text = some n ∧ IsInt n
  socket : Fits 1015 (get .socket)
  keyfile : Fits 4096 (get .keyfile)
  startDbCommand : Fits 4096 (get .startDbCommand)
  stopDbCommand : Fits 4096 (get .stopDbCommand)
  stopSet : get .stopDbCommand ≠ none
  cleanupDbCommand : Fits 4096 (get .cleanupDbCommand)
  whoami : ∀ text, get .whoami = some text → (homedir text).length < 256
  accessSudo : Fits 64 (get .accessSudo)

theorem store_eq_some_iff {size : ℕ} {text text' : Bytes} :
    store size text = some text' ↔ text.length < size ∧ text' = text := by
  unfold store
  split <;> simp [*, eq_comm]

/-- A variable with a default that fits. -/
theorem length_getD_lt_iff {size : ℕ} {env : Option Bytes} {default : Bytes}
    (hdefault : env = none → default.length < size) :
    (env.getD default).length < size ↔ Fits size env := by
  cases env with
  | none => simpa [Fits] using hdefault rfl
  | some text => simp [Fits]

theorem length_socketOption_lt_iff {env : Option Bytes} :
    (socketOption env).length < 1024 ↔ Fits 1015 env := by
  cases env with
  | none => simp [Fits, socketOption, ascii]
  | some text =>
    have hlength : (ascii "--socket=").length = 9 := rfl
    simp only [socketOption, List.length_append, hlength, Fits, Option.some.injEq, forall_eq']
    omega

theorem length_le_homedir (user : Bytes) : user.length ≤ (homedir user).length := by
  unfold homedir
  split <;> simp only [List.length_append] <;> omega

/-- The number an `int` is set to. -/
theorem scanInt_eq_some_iff {text : Bytes} {old n : ℤ} :
    scanInt text old = some n ∧ number text = some n ↔ number text = some n ∧ IsInt n := by
  unfold scanInt
  cases number text with
  | none => simp
  | some m =>
    simp only [Option.some.injEq]
    constructor
    · rintro ⟨h, rfl⟩
      by_cases hint : IsInt m
      · exact ⟨rfl, hint⟩
      · rw [if_neg hint] at h
        cases h
    · rintro ⟨rfl, hint⟩
      exact ⟨if_pos hint, rfl⟩

/-- **One node.** What is written to each field. -/
theorem readServer_eq_some_iff {get : NodeVar → Option Bytes} {old new : ServerFields} :
    readServer get old = some new ↔
      readIp get old = some new.ip ∧
      store 1024 ((get .privateIp).getD new.ip) = some new.ipPrivate ∧
      store 1024 ((get .network6).getD new.ip) = some new.ip6 ∧
      readPort get old = some new.port ∧
      store 1024 ((get .socket).getD (ascii " ")) = some new.socket ∧
      store 1024 (socketOption (get .socket)) = some new.socketCmd ∧
      store 4096 ((get .keyfile).getD (ascii "vagrant.pem")) = some new.sshkey ∧
      (∃ start,
        store 4096 ((get .startDbCommand).getD (ascii "service mysql start")) = some start ∧
        readStopCommand get old start = some (new.startDbCommand, new.stopDbCommand)) ∧
      store 4096 ((get .cleanupDbCommand).getD (ascii " ")) = some new.cleanupDbCommand ∧
      store 256 ((get .whoami).getD (ascii "root")) = some new.accessUser ∧
      store 64 ((get .accessSudo).getD (ascii " ")) = some new.accessSudo ∧
      store 256 (homedir new.accessUser) = some new.accessHomedir := by
  constructor
  · intro h
    obtain ⟨_, hip, h⟩ := Option.bind_eq_some_iff.mp h
    obtain ⟨_, hprivate, h⟩ := Option.bind_eq_some_iff.mp h
    obtain ⟨_, hip6, h⟩ := Option.bind_eq_some_iff.mp h
    obtain ⟨_, hport, h⟩ := Option.bind_eq_some_iff.mp h
    obtain ⟨_, hsocket, h⟩ := Option.bind_eq_some_iff.mp h
    obtain ⟨_, hcmd, h⟩ := Option.bind_eq_some_iff.mp h
    obtain ⟨_, hkey, h⟩ := Option.bind_eq_some_iff.mp h
    obtain ⟨start, hstart, h⟩ := Option.bind_eq_some_iff.mp h
    obtain ⟨⟨_, _⟩, hstop, h⟩ := Option.bind_eq_some_iff.mp h
    obtain ⟨_, hcleanup, h⟩ := Option.bind_eq_some_iff.mp h
    obtain ⟨_, huser, h⟩ := Option.bind_eq_some_iff.mp h
    obtain ⟨_, hsudo, h⟩ := Option.bind_eq_some_iff.mp h
    obtain ⟨_, hhome, h⟩ := Option.bind_eq_some_iff.mp h
    obtain rfl := Option.some.inj h
    exact ⟨hip, hprivate, hip6, hport, hsocket, hcmd, hkey, ⟨start, hstart, hstop⟩, hcleanup, huser,
      hsudo, hhome⟩
  · rintro ⟨hip, hprivate, hip6, hport, hsocket, hcmd, hkey, ⟨start, hstart, hstop⟩, hcleanup,
      huser, hsudo, hhome⟩
    refine Option.bind_eq_some_iff.mpr ⟨_, hip, ?_⟩
    refine Option.bind_eq_some_iff.mpr ⟨_, hprivate, ?_⟩
    refine Option.bind_eq_some_iff.mpr ⟨_, hip6, ?_⟩
    refine Option.bind_eq_some_iff.mpr ⟨_, hport, ?_⟩
    refine Option.bind_eq_some_iff.mpr ⟨_, hsocket, ?_⟩
    refine Option.bind_eq_some_iff.mpr ⟨_, hcmd, ?_⟩
    refine Option.bind_eq_some_iff.mpr ⟨_, hkey, ?_⟩
    refine Option.bind_eq_some_iff.mpr ⟨_, hstart, ?_⟩
    refine Option.bind_eq_some_iff.mpr ⟨_, hstop, ?_⟩
    refine Option.bind_eq_some_iff.mpr ⟨_, hcleanup, ?_⟩
    refine Option.bind_eq_some_iff.mpr ⟨_, huser, ?_⟩
    refine Option.bind_eq_some_iff.mpr ⟨_, hsudo, ?_⟩
    refine Option.bind_eq_some_iff.mpr ⟨_, hhome, ?_⟩
    rfl

/-- A port that is a number, or the default. -/
theorem readPort_of_clean {get : NodeVar → Option Bytes} (h : CleanServer get)
    (old : ServerFields) : ∃ p, readPort get old = some p ∧
      (∀ text, get .port = some text → number text = some p) ∧ (get .port = none → p = 3306) := by
  unfold readPort
  cases hport : get .port with
  | none => exact ⟨3306, rfl, nofun, fun _ => rfl⟩
  | some text =>
    obtain ⟨n, hnumber⟩ := h.port text hport
    refine ⟨n, (scanInt_eq_some_iff.mpr hnumber).1, ?_, nofun⟩
    rintro _ ⟨⟩
    exact hnumber.1

/-- **Own values.** With clean variables every field of a node gets its own value. -/
theorem readServer_of_clean {get : NodeVar → Option Bytes} (h : CleanServer get)
    (old : ServerFields) : ∃ new, readServer get old = some new ∧ HoldsOwn get old new := by
  obtain ⟨p, hport, hnumber, hdefault⟩ := readPort_of_clean h old
  obtain ⟨stop, hstop⟩ := Option.ne_none_iff_exists'.mp h.stopSet
  have hip : readIp get old = some ((get .network).getD old.ip) := by
    unfold readIp
    cases hnetwork : get .network with
    | none => rfl
    | some text => exact store_eq_some_iff.mpr ⟨h.network text hnetwork, rfl⟩
  -- the address only serves as a default where it is set
  have haddress : ∀ v, (get .network = none → get v ≠ none) → get v = none →
      ((get .network).getD old.ip).length < 1024 := by
    intro v hset hnone
    cases hnetwork : get .network with
    | none => exact absurd hnone (hset hnetwork)
    | some text => exact h.network text hnetwork
  have huser : ((get .whoami).getD (ascii "root")).length < 256 ∧
      (homedir ((get .whoami).getD (ascii "root"))).length < 256 := by
    cases hwhoami : get .whoami with
    | none => decide +kernel
    | some text =>
      have hhome := h.whoami text hwhoami
      exact ⟨(length_le_homedir text).trans_lt hhome, hhome⟩
  refine ⟨{ ip := (get .network).getD old.ip
            ipPrivate := (get .privateIp).getD ((get .network).getD old.ip)
            ip6 := (get .network6).getD ((get .network).getD old.ip)
            port := p
            socket := (get .socket).getD (ascii " ")
            socketCmd := socketOption (get .socket)
            sshkey := (get .keyfile).getD (ascii "vagrant.pem")
            startDbCommand := (get .startDbCommand).getD (ascii "service mysql start")
            stopDbCommand := stop
            cleanupDbCommand := (get .cleanupDbCommand).getD (ascii " ")
            accessUser := (get .whoami).getD (ascii "root")
            accessSudo := (get .accessSudo).getD (ascii " ")
            accessHomedir := homedir ((get .whoami).getD (ascii "root")) }, ?_, ?_⟩
  · rw [readServer_eq_some_iff]
    simp only [store_eq_some_iff, and_true]
    refine ⟨hip, ?_, ?_, hport, ?_, ?_, ?_, ⟨_, ⟨?_, rfl⟩, ?_⟩, ?_, huser.1, ?_, huser.2⟩
    · exact (length_getD_lt_iff (haddress _ fun hn => (h.noNetwork hn).1)).mpr h.privateIp
    · exact (length_getD_lt_iff (haddress _ fun hn => (h.noNetwork hn).2)).mpr h.network6
    · exact (length_getD_lt_iff fun _ => by decide +kernel).mpr
        fun text htext => (h.socket text htext).trans (by decide)
    · exact length_socketOption_lt_iff.mpr h.socket
    · exact (length_getD_lt_iff fun _ => by decide +kernel).mpr h.keyfile
    · exact (length_getD_lt_iff fun _ => by decide +kernel).mpr h.startDbCommand
    · rw [readStopCommand, hstop]
      simp only [store, if_pos (h.stopDbCommand stop hstop), Option.map_some]
    · exact (length_getD_lt_iff fun _ => by decide +kernel).mpr h.cleanupDbCommand
    · exact (length_getD_lt_iff fun _ => by decide +kernel).mpr h.accessSudo
  · exact ⟨rfl, rfl, rfl, hnumber, hdefault, rfl, rfl, rfl, rfl, by rw [hstop]; rfl, rfl, rfl, rfl,
      rfl⟩

/-- What an object's memory may hold before. -/
def junk : ServerFields where
  ip := List.replicate 1024 120
  ipPrivate := []
  ip6 := []
  port := 0
  socket := []
  socketCmd := []
  sshkey := []
  startDbCommand := []
  stopDbCommand := []
  cleanupDbCommand := []
  accessUser := []
  accessSudo := []
  accessHomedir := []

/-- Whatever the memory holds before: only clean variables give every field its own value. -/
theorem clean_of_readServer {get : NodeVar → Option Bytes} {new : ServerFields}
    (h : readServer get junk = some new) (hown : HoldsOwn get junk new) : CleanServer get := by
  obtain ⟨hip, hprivate, hip6, hport, -, hcmd, hkey, ⟨start, hstart, hstop⟩, hcleanup, -, hsudo,
    hhome⟩ := readServer_eq_some_iff.mp h
  refine {
    network := fun text htext => ?_
    noNetwork := fun hnone => ?_
    privateIp := fun text htext => ?_
    network6 := fun text htext => ?_
    port := fun text htext => ?_
    socket := length_socketOption_lt_iff.mp (store_eq_some_iff.mp hcmd).1
    keyfile := (length_getD_lt_iff fun _ => by decide +kernel).mp (store_eq_some_iff.mp hkey).1
    startDbCommand :=
      (length_getD_lt_iff fun _ => by decide +kernel).mp (store_eq_some_iff.mp hstart).1
    stopDbCommand := fun text htext => ?_
    stopSet := fun hnone => ?_
    cleanupDbCommand :=
      (length_getD_lt_iff fun _ => by decide +kernel).mp (store_eq_some_iff.mp hcleanup).1
    whoami := fun text htext => ?_
    accessSudo :=
      (length_getD_lt_iff fun _ => by decide +kernel).mp (store_eq_some_iff.mp hsudo).1 }
  · rw [readIp, htext] at hip
    exact (store_eq_some_iff.mp hip).1
  · -- the address is as long as its array, and would be copied
    rw [readIp, hnone] at hip
    have hlong : new.ip.length = 1024 := by
      rw [← Option.some.inj hip]
      exact List.length_replicate
    constructor
    · intro hunset
      rw [hunset] at hprivate
      exact absurd (store_eq_some_iff.mp hprivate).1 (by simp [hlong])
    · intro hunset
      rw [hunset] at hip6
      exact absurd (store_eq_some_iff.mp hip6).1 (by simp [hlong])
  · rw [htext] at hprivate
    exact (store_eq_some_iff.mp hprivate).1
  · rw [htext] at hip6
    exact (store_eq_some_iff.mp hip6).1
  · rw [readPort, htext] at hport
    exact ⟨new.port, scanInt_eq_some_iff.mp ⟨hport, hown.port text htext⟩⟩
  · rw [readStopCommand, htext] at hstop
    obtain ⟨stop, hstore, -⟩ := Option.map_eq_some_iff.mp hstop
    exact (store_eq_some_iff.mp hstore).1
  · -- the field to stop the node is as it was
    rw [readStopCommand, hnone] at hstop
    obtain ⟨_, -, hpair⟩ := Option.map_eq_some_iff.mp hstop
    have hfield := hown.stopDbCommand
    rw [hnone, ← (Prod.mk.inj hpair).2] at hfield
    exact absurd (show [] = ascii "service mysql stop" from hfield) (by decide +kernel)
  · have huser := hown.accessUser
    rw [htext] at huser
    rw [huser] at hhome
    exact (store_eq_some_iff.mp hhome).1

/-! ### All nodes -/

section Nodes

variable {pref : Bytes} {env : Environment}

/-- **Loop.** When it goes through, each node of the list has had its round, and the others are
    as they were. -/
theorem foldlM_readRound {is : List ℕ} (hnodup : is.Nodup) {server server' : ℕ → ServerFields}
    (h : is.foldlM (readRound pref env) server = some server') (i : ℕ) :
    if i ∈ is then readServer (nodeEnv pref env i) (server i) = some (server' i)
    else server' i = server i := by
  induction is generalizing server with
  | nil =>
    obtain rfl := Option.some.inj h
    exact rfl
  | cons j is ih =>
    obtain ⟨hj, his⟩ := List.nodup_cons.mp hnodup
    obtain ⟨mid, hround, hrest⟩ := Option.bind_eq_some_iff.mp h
    obtain ⟨new, hnew, rfl⟩ := Option.map_eq_some_iff.mp hround
    have hi := ih his hrest
    by_cases heq : i = j
    · subst heq
      rw [if_neg hj, Function.update_self] at hi
      rw [if_pos List.mem_cons_self, hnew, hi]
    · rw [Function.update_of_ne heq] at hi
      simpa [heq] using hi

/-- The loop goes through if every round does. -/
theorem exists_foldlM_readRound {is : List ℕ} (hnodup : is.Nodup) {server : ℕ → ServerFields}
    (h : ∀ i ∈ is, ∃ new, readServer (nodeEnv pref env i) (server i) = some new) :
    ∃ server', is.foldlM (readRound pref env) server = some server' := by
  induction is generalizing server with
  | nil => exact ⟨server, rfl⟩
  | cons j is ih =>
    obtain ⟨hj, his⟩ := List.nodup_cons.mp hnodup
    obtain ⟨new, hnew⟩ := h j List.mem_cons_self
    have hrounds : ∀ i ∈ is, ∃ new',
        readServer (nodeEnv pref env i) (Function.update server j new i) = some new' := by
      intro i hi
      have hne : i ≠ j := fun heq => hj (heq ▸ hi)
      rw [Function.update_of_ne hne]
      exact h i (List.mem_cons_of_mem j hi)
    obtain ⟨server', hrest⟩ := ih his hrounds
    exact ⟨server', Option.bind_eq_some_iff.mpr ⟨_, by rw [readRound, hnew]; rfl, hrest⟩⟩

/-- Below 255 nodes every one of them has its round. -/
theorem readServers_apply {N : ℤ} (hN : N < 255) {old server : ℕ → ServerFields}
    (h : readServers pref env N old = some server) (j : ℕ) :
    if (j : ℤ) < N then readServer (nodeEnv pref env j) (old j) = some (server j)
    else server j = old j := by
  by_cases hpos : 0 < N
  · rw [readServers, if_pos ⟨hpos, hN⟩] at h
    have hround := foldlM_readRound List.nodup_range h j
    have hmem : j ∈ List.range N.toNat ↔ (j : ℤ) < N := by
      rw [List.mem_range]
      omega
    simpa only [hmem] using hround
  · rw [readServers, if_neg fun hboth => hpos hboth.1] at h
    rw [if_neg (by omega), Option.some.inj h]

/-- They all have if none of the rounds faults. -/
theorem exists_readServers {N : ℤ} {old : ℕ → ServerFields}
    (h : ∀ j : ℕ, (j : ℤ) < N → ∃ new, readServer (nodeEnv pref env j) (old j) = some new) :
    ∃ server, readServers pref env N old = some server := by
  unfold readServers
  split
  · apply exists_foldlM_readRound List.nodup_range
    intro j hj
    have hlt := List.mem_range.mp hj
    exact h j (by omega)
  · exact ⟨old, rfl⟩

end Nodes

/-! ### The object -/

/-- What `read_env` writes to the object. -/
theorem readEnv_eq_some_iff {pref : Bytes} {env : Environment} {old o : NodesObject} :
    readEnv pref env old = some o ↔
      readN pref env old.N = some o.N ∧
      readAccount (env (globalVariable pref (ascii "user"))) old.userName = some o.userName ∧
      readAccount (env (globalVariable pref (ascii "password"))) old.password = some o.password ∧
      readSsl (env (globalVariable pref (ascii "ssl"))) = o.ssl ∧
      readServers pref env o.N old.server = some o.server := by
  constructor
  · intro h
    obtain ⟨_, hN, h⟩ := Option.bind_eq_some_iff.mp h
    obtain ⟨_, huser, h⟩ := Option.bind_eq_some_iff.mp h
    obtain ⟨_, hpassword, h⟩ := Option.bind_eq_some_iff.mp h
    obtain ⟨_, hserver, h⟩ := Option.bind_eq_some_iff.mp h
    obtain rfl := Option.some.inj h
    exact ⟨hN, huser, hpassword, rfl, hserver⟩
  · rintro ⟨hN, huser, hpassword, hssl, hserver⟩
    refine Option.bind_eq_some_iff.mpr ⟨_, hN, ?_⟩
    refine Option.bind_eq_some_iff.mpr ⟨_, huser, ?_⟩
    refine Option.bind_eq_some_iff.mpr ⟨_, hpassword, ?_⟩
    refine Option.bind_eq_some_iff.mpr ⟨_, hserver, ?_⟩
    rw [hssl]
    rfl

/-- The number of nodes an environment gives, if it does. -/
def nodeCount (pref : Bytes) (env : Environment) : Option ℤ :=
  match env (globalVariable pref (ascii "N")) with
  | some text => (number text).filter IsInt
  | none => some 0

/-- The environment gives a number of nodes that is read, their variables are clean, and the
    words for `user_name` and `password` fit. -/
structure CleanEnv (pref : Bytes) (env : Environment) : Prop where
  nodes : ∃ n, nodeCount pref env = some n ∧ n < 255 ∧
    ∀ j : ℕ, (j : ℤ) < n → CleanServer (nodeEnv pref env j)
  user : ∀ text, env (globalVariable pref (ascii "user")) = some text → (word text).length < 256
  password :
    ∀ text, env (globalVariable pref (ascii "password")) = some text → (word text).length < 256

/-- Every node's fields hold their own values. -/
def HoldsAll (pref : Bytes) (env : Environment) (old o : NodesObject) : Prop :=
  ∀ j : ℕ, (j : ℤ) < o.N → HoldsOwn (nodeEnv pref env j) (old.server j) (o.server j)

theorem readAccount_of_fits {env : Option Bytes}
    (h : ∀ text, env = some text → (word text).length < 256) (old : Bytes) :
    ∃ text, readAccount env old = some text := by
  cases env with
  | none => exact ⟨_, rfl⟩
  | some text =>
    show ∃ text', (if word text = [] then some old else store 256 (word text)) = some text'
    split
    · exact ⟨old, rfl⟩
    · exact ⟨_, store_eq_some_iff.mpr ⟨h text rfl, rfl⟩⟩

theorem fits_of_readAccount {env : Option Bytes} {old new : Bytes}
    (h : readAccount env old = some new) :
    ∀ text, env = some text → (word text).length < 256 := by
  rintro text rfl
  change (if word text = [] then some old else store 256 (word text)) = some new at h
  split at h
  · rename_i hempty
    rw [hempty]
    decide
  · exact (store_eq_some_iff.mp h).1

/-- A number of nodes that is given does not depend on what the memory holds. -/
theorem readN_of_nodeCount {pref : Bytes} {env : Environment} {n : ℤ}
    (h : nodeCount pref env = some n) (old : ℤ) : readN pref env old = some n := by
  unfold nodeCount at h
  unfold readN
  split at h
  · rename_i text htext
    obtain ⟨hnumber, hint⟩ := Option.filter_eq_some_iff.mp h
    exact (scanInt_eq_some_iff.mpr ⟨hnumber, by simpa using hint⟩).1
  · exact h

/-- Without such a number the one in the memory stays. -/
theorem nodeCount_of_readN {pref : Bytes} {env : Environment} {old n : ℤ}
    (h : readN pref env old = some n) : nodeCount pref env = some n ∨ n = old := by
  unfold readN at h
  unfold nodeCount
  split at h
  · rename_i text htext
    cases hnumber : number text with
    | none =>
      rw [scanInt, hnumber] at h
      exact .inr (Option.some.inj h).symm
    | some m =>
      rw [scanInt, hnumber] at h
      change (if IsInt m then some m else none) = some n at h
      split at h
      · rename_i hint
        exact .inl (by simp [hint, ← h, Option.filter])
      · cases h
  · exact .inl h

/-- **One environment.** With clean variables every field gets its own value. -/
theorem readEnv_of_clean {pref : Bytes} {env : Environment} (h : CleanEnv pref env)
    (old : NodesObject) : ∃ o, readEnv pref env old = some o ∧ HoldsAll pref env old o := by
  obtain ⟨n, hcount, hbound, hservers⟩ := h.nodes
  obtain ⟨userName, huser⟩ := readAccount_of_fits h.user old.userName
  obtain ⟨password, hpassword⟩ := readAccount_of_fits h.password old.password
  obtain ⟨server, hserver⟩ := exists_readServers fun j hj =>
    (readServer_of_clean (hservers j hj) (old.server j)).imp fun _ => And.left
  have hown : ∀ j : ℕ, (j : ℤ) < n →
      HoldsOwn (nodeEnv pref env j) (old.server j) (server j) := by
    intro j hj
    have hround := readServers_apply hbound hserver j
    rw [if_pos hj] at hround
    obtain ⟨new, hnew, hown⟩ := readServer_of_clean (hservers j hj) (old.server j)
    rw [Option.some.inj (hround.symm.trans hnew)]
    exact hown
  exact ⟨⟨n, userName, password, readSsl (env (globalVariable pref (ascii "ssl"))), server⟩,
    readEnv_eq_some_iff.mpr ⟨readN_of_nodeCount hcount old.N, huser, hpassword, rfl, hserver⟩, hown⟩

/-- An object whose memory holds junk. -/
def junkObject : NodesObject where
  N := 255
  userName := []
  password := []
  ssl := false
  server := fun _ => junk

/-- Fields that have been left alone do not hold their own values. -/
theorem not_holdsOwn_junk (get : NodeVar → Option Bytes) : ¬ HoldsOwn get junk junk := by
  intro h
  have hcmd := h.socketCmd
  cases hsocket : get .socket with
  | none =>
    rw [hsocket] at hcmd
    exact absurd (show [] = ascii " " from hcmd) (by decide +kernel)
  | some text =>
    rw [hsocket] at hcmd
    exact absurd (show [] = ascii "--socket=" ++ text from hcmd) (by simp [ascii])

/-- Whatever the memory holds before: only clean variables give every field its own value. -/
theorem clean_of_readEnv {pref : Bytes} {env : Environment} {o : NodesObject}
    (h : readEnv pref env junkObject = some o) (hown : HoldsAll pref env junkObject o) :
    CleanEnv pref env := by
  obtain ⟨hN, huser, hpassword, -, hserver⟩ := readEnv_eq_some_iff.mp h
  -- the first of 255 nodes or more is left alone
  have hbound : o.N < 255 := by
    by_contra hover
    rw [readServers, if_neg fun hboth => hover hboth.2] at hserver
    have hfirst := hown 0 (by omega)
    rw [← Option.some.inj hserver] at hfirst
    exact not_holdsOwn_junk _ hfirst
  refine ⟨⟨o.N, (nodeCount_of_readN hN).resolve_right fun heq => ?_, hbound, fun j hj => ?_⟩,
    fits_of_readAccount huser, fits_of_readAccount hpassword⟩
  · rw [heq] at hbound
    exact absurd hbound (by decide)
  · have hround := readServers_apply hbound hserver j
    rw [if_pos hj] at hround
    exact clean_of_readServer hround (hown j hj)

/-! ### Two environments -/

/-- The fields of a node agree but for those of one variable, and for what is made of them: an
    address serves for the others where these are not set. -/
structure SameBut (v : NodeVar) (get : NodeVar → Option Bytes) (a b : ServerFields) : Prop where
  ip : v ≠ .network → a.ip = b.ip
  ipPrivate : v ≠ .privateIp → (v = .network → get .privateIp ≠ none) → a.ipPrivate = b.ipPrivate
  ip6 : v ≠ .network6 → (v = .network → get .network6 ≠ none) → a.ip6 = b.ip6
  port : v ≠ .port → a.port = b.port
  socket : v ≠ .socket → a.socket = b.socket
  socketCmd : v ≠ .socket → a.socketCmd = b.socketCmd
  sshkey : v ≠ .keyfile → a.sshkey = b.sshkey
  startDbCommand : v ≠ .startDbCommand → a.startDbCommand = b.startDbCommand
  stopDbCommand : v ≠ .stopDbCommand → a.stopDbCommand = b.stopDbCommand
  cleanupDbCommand : v ≠ .cleanupDbCommand → a.cleanupDbCommand = b.cleanupDbCommand
  accessUser : v ≠ .whoami → a.accessUser = b.accessUser
  accessSudo : v ≠ .accessSudo → a.accessSudo = b.accessSudo
  accessHomedir : v ≠ .whoami → a.accessHomedir = b.accessHomedir

theorem SameBut.refl (v : NodeVar) (get : NodeVar → Option Bytes) (a : ServerFields) :
    SameBut v get a a := by
  constructor <;> intros <;> rfl

/-- **Two nodes.** Fields that hold their own values agree where the variables do. -/
theorem HoldsOwn.sameBut {v : NodeVar} {get get' : NodeVar → Option Bytes}
    (hget : ∀ w, v ≠ w → get' w = get w) {old a b : ServerFields} (ha : HoldsOwn get old a)
    (hb : HoldsOwn get' old b) : SameBut v get a b := by
  have hip : v ≠ .network → a.ip = b.ip := fun hv => by rw [ha.ip, hb.ip, hget _ hv]
  have huser : v ≠ .whoami → a.accessUser = b.accessUser := fun hv => by
    rw [ha.accessUser, hb.accessUser, hget _ hv]
  -- an address is made of its own variable, or of the first one
  have hderived : ∀ w, v ≠ w → (v = .network → get w ≠ none) →
      (get w).getD a.ip = (get' w).getD b.ip := by
    intro w hv hset
    rw [hget w hv]
    cases hw : get w with
    | none => exact hip fun hnetwork => hset hnetwork hw
    | some text => rfl
  refine {
    ip := hip
    ipPrivate := fun hv hset => by rw [ha.ipPrivate, hb.ipPrivate, hderived _ hv hset]
    ip6 := fun hv hset => by rw [ha.ip6, hb.ip6, hderived _ hv hset]
    port := fun hv => ?_
    socket := fun hv => by rw [ha.socket, hb.socket, hget _ hv]
    socketCmd := fun hv => by rw [ha.socketCmd, hb.socketCmd, hget _ hv]
    sshkey := fun hv => by rw [ha.sshkey, hb.sshkey, hget _ hv]
    startDbCommand := fun hv => by rw [ha.startDbCommand, hb.startDbCommand, hget _ hv]
    stopDbCommand := fun hv => by rw [ha.stopDbCommand, hb.stopDbCommand, hget _ hv]
    cleanupDbCommand := fun hv => by rw [ha.cleanupDbCommand, hb.cleanupDbCommand, hget _ hv]
    accessUser := huser
    accessSudo := fun hv => by rw [ha.accessSudo, hb.accessSudo, hget _ hv]
    accessHomedir := fun hv => by rw [ha.accessHomedir, hb.accessHomedir, huser hv] }
  have hport := hget _ hv
  cases hset : get .port with
  | none => rw [ha.noPort hset, hb.noPort (hport.trans hset)]
  | some text =>
    exact Option.some.inj ((ha.port text hset).symm.trans (hb.port text (hport.trans hset)))

/-- Two objects agree but for one variable of one node. -/
structure SameButNode (i : ℕ) (v : NodeVar) (get : NodeVar → Option Bytes) (o o' : NodesObject) :
    Prop where
  N : o.N = o'.N
  userName : o.userName = o'.userName
  password : o.password = o'.password
  ssl : o.ssl = o'.ssl
  others : ∀ j ≠ i, o.server j = o'.server j
  node : SameBut v get (o.server i) (o'.server i)

/-- In an environment, and in one that differs from it in one variable of one node, `read_env`
    stays inside the object and gives every field its own value; the two objects differ in the
    fields of that variable and node only. -/
def ReadsApart (pref : Bytes) (env : Environment) (i : ℕ) (v : NodeVar) (value : Option Bytes) :
    Prop :=
  ∀ old, ∃ o o', readEnv pref env old = some o ∧
    readEnv pref (Function.update env (nodeVariable pref i v) value) old = some o' ∧
    HoldsAll pref env old o ∧
    HoldsAll pref (Function.update env (nodeVariable pref i v) value) old o' ∧
    SameButNode i v (nodeEnv pref env i) o o'

section Update

variable (pref : Bytes) (env : Environment) (i : ℕ) (v : NodeVar) (value : Option Bytes)

/-- The other variables of all nodes are what they were. -/
theorem nodeEnv_update_of_ne {j : ℕ} {w : NodeVar} (h : ¬ (j = i ∧ w = v)) :
    nodeEnv pref (Function.update env (nodeVariable pref i v) value) j w = nodeEnv pref env j w :=
  Function.update_of_ne (fun hname => h (nodeVariable_inj.mp hname)) _ _

/-- So are the variables for all nodes. -/
theorem update_globalVariable {name : Bytes} (hname : name.head?.any isdigit = false) :
    Function.update env (nodeVariable pref i v) value (globalVariable pref name)
      = env (globalVariable pref name) :=
  Function.update_of_ne (nodeVariable_ne_globalVariable hname i v) _ _

/-- **Two objects.** In environments that differ in one variable, fields that hold their own
    values differ where that variable is read. -/
theorem sameButNode_of_holdsAll {old o o' : NodesObject} (hbound : o.N < 255)
    (h : readEnv pref env old = some o)
    (h' : readEnv pref (Function.update env (nodeVariable pref i v) value) old = some o')
    (hown : HoldsAll pref env old o)
    (hown' : HoldsAll pref (Function.update env (nodeVariable pref i v) value) old o') :
    SameButNode i v (nodeEnv pref env i) o o' := by
  obtain ⟨hN, huser, hpassword, hssl, hserver⟩ := readEnv_eq_some_iff.mp h
  obtain ⟨hN', huser', hpassword', hssl', hserver'⟩ := readEnv_eq_some_iff.mp h'
  rw [readN, update_globalVariable pref env i v value rfl] at hN'
  rw [update_globalVariable pref env i v value rfl] at huser' hpassword' hssl'
  have hnodes : o.N = o'.N := Option.some.inj (hN.symm.trans hN')
  refine {
    N := hnodes
    userName := Option.some.inj (huser.symm.trans huser')
    password := Option.some.inj (hpassword.symm.trans hpassword')
    ssl := hssl.symm.trans hssl'
    others := fun j hj => ?_
    node := ?_ }
  · -- the round of another node is the same
    have hsame : nodeEnv pref (Function.update env (nodeVariable pref i v) value) j
        = nodeEnv pref env j :=
      funext fun w => nodeEnv_update_of_ne pref env i v value fun hboth => hj hboth.1
    have hround := readServers_apply hbound hserver j
    have hround' := readServers_apply (hnodes ▸ hbound) hserver' j
    rw [hsame, ← hnodes] at hround'
    split at hround
    · rw [if_pos ‹_›] at hround'
      exact Option.some.inj (hround.symm.trans hround')
    · rw [if_neg ‹_›] at hround'
      exact hround.trans hround'.symm
  · by_cases hi : (i : ℤ) < o.N
    · refine (hown i hi).sameBut (fun w hw => ?_) (hown' i (hnodes ▸ hi))
      exact nodeEnv_update_of_ne pref env i v value fun hboth => hw hboth.2.symm
    · have hround := readServers_apply hbound hserver i
      have hround' := readServers_apply (hnodes ▸ hbound) hserver' i
      rw [if_neg hi] at hround
      rw [if_neg (hnodes ▸ hi)] at hround'
      rw [hround, hround']
      exact SameBut.refl _ _ _

end Update

/-- **Apart.** Whatever the object's memory holds before, the fields get their own values in both
    environments, and differ in those of the variable only, exactly when both environments are
    clean: the command to stop a node is set for every node. -/
theorem read_env_apart_iff (pref : Bytes) (env : Environment) (i : ℕ) (v : NodeVar)
    (value : Option Bytes) :
    ReadsApart pref env i v value ↔ CleanEnv pref env ∧
      CleanEnv pref (Function.update env (nodeVariable pref i v) value) := by
  constructor
  · intro h
    obtain ⟨o, o', hrun, hrun', hown, hown', -⟩ := h junkObject
    exact ⟨clean_of_readEnv hrun hown, clean_of_readEnv hrun' hown'⟩
  · rintro ⟨hclean, hclean'⟩ old
    obtain ⟨o, hrun, hown⟩ := readEnv_of_clean hclean old
    obtain ⟨o', hrun', hown'⟩ := readEnv_of_clean hclean' old
    have hbound : o.N < 255 := by
      obtain ⟨n, hcount, hn, -⟩ := hclean.nodes
      have hN := (readEnv_eq_some_iff.mp hrun).1
      rw [readN_of_nodeCount hcount] at hN
      exact Option.some.inj hN ▸ hn
    exact ⟨o, o', hrun, hrun', hown, hown',
      sameButNode_of_holdsAll pref env i v value hbound hrun hrun' hown hown'⟩

/-- One node, of which nothing but the address is given. -/
def exampleEnvironment : Environment := fun name =>
  if name = globalVariable (ascii "node") (ascii "N") then some (ascii "1")
  else if name = nodeVariable (ascii "node") 0 .network then some (ascii "192.168.122.2")
  else none

/-- The command to start this node is the default of the command to stop it. -/
theorem start_command_overwritten :
    ¬ ReadsApart (ascii "node") exampleEnvironment 0 .stopDbCommand
      (some (ascii "service mysql stop")) := by
  rw [read_env_apart_iff]
  rintro ⟨⟨⟨n, hcount, -, hservers⟩, -, -⟩, -⟩
  have hone : nodeCount (ascii "node") exampleEnvironment = some 1 := by decide +kernel
  obtain rfl : n = 1 := Option.some.inj (hcount.symm.trans hone)
  have hunset : nodeEnv (ascii "node") exampleEnvironment 0 .stopDbCommand = none := by
    decide +kernel
  exact (hservers 0 (by decide)).stopSet hunset

end MaxScaleSystemTest.Nodes.ReadEnv
