import MaxScaleSystemTest.Lib.Shell
import MaxScaleSystemTest.Nodes.CheckNodes

namespace MaxScaleSystemTest.Nodes

open CString Shell

/-!
# Commands for another machine

`generate_ssh_cmd` makes a line for the shell that starts `ssh` with a command as its last
argument.  The command stands between single quotes, and nothing is done about the quotes in it.

* `generateSshCmdMaxscale` — the method of `TestConnections` of that name;
* `words_sshLine` — the words of the line in front of the command;
* `ssh_command_arrives_iff` — when `ssh` gets the command as it has been given;
* `clean_iptables_arrives` — what it gets of the commands of `clean_iptables`, which have some.
-/

/-- `TestConnections::generate_ssh_cmd`, which has one blank less than the one of
    `Mariadb_nodes`. -/
def generateSshCmdMaxscale (l : Login) (ssh : Bytes) (useSudo : Bool) : Bytes :=
  if l.IP = ascii "127.0.0.1" then
    if useSudo then l.accessSudo ++ ascii " " ++ ssh else ssh
  else
    let connect := ascii "ssh -i " ++ l.sshkey ++ ascii (" -o UserKnownHostsFile=/dev/null" ++
      " -o StrictHostKeyChecking=no -o LogLevel=quiet ") ++ l.accessUser ++ ascii "@" ++ l.IP
    if useSudo then connect ++ ascii " '" ++ l.accessSudo ++ ascii " " ++ ssh ++ ascii "'"
    else connect ++ ascii " '" ++ ssh ++ ascii "'"

/-- The command as the shell of a node should see it. -/
def command (l : Login) (ssh : Bytes) (useSudo : Bool) : Bytes :=
  if useSudo then l.accessSudo ++ ascii " " ++ ssh else ssh

/-- The words of the line in front of the command. -/
def sshWords (l : Login) : List Bytes :=
  [ascii "ssh", ascii "-i", l.sshkey, ascii "-o", ascii "UserKnownHostsFile=/dev/null", ascii "-o",
    ascii "StrictHostKeyChecking=no", ascii "-o", ascii "LogLevel=quiet",
    l.accessUser ++ ascii "@" ++ l.IP]

/-- Another machine, with a key, a user and an address that need no quotes. -/
structure Login.Remote (l : Login) : Prop where
  remote : l.IP ≠ ascii "127.0.0.1"
  key : l.sshkey ≠ []
  keyPlain : ∀ c ∈ l.sshkey, Plain c
  userPlain : ∀ c ∈ l.accessUser, Plain c
  addressPlain : ∀ c ∈ l.IP, Plain c

/-! ### The line -/

/-- A word and the blank behind it. -/
def spaced (w : Bytes) : Bytes := w ++ [blank]

/-- Plain words with a blank behind each. -/
theorem words_spaced {ws : List Bytes} (hne : ∀ w ∈ ws, w ≠ [])
    (hplain : ∀ w ∈ ws, ∀ c ∈ w, Plain c) (s : Bytes) :
    words (ws.flatMap spaced ++ s) = (words s).map (ws ++ ·) := by
  induction ws with
  | nil => simp
  | cons w ws ih =>
    rw [List.forall_mem_cons] at hne hplain
    rw [List.flatMap_cons, spaced, List.append_assoc, List.append_assoc, List.singleton_append,
      words_cons hne.1 hplain.1, ih hne.2 hplain.2, Option.map_map]
    rfl

/-- The options, with one blank more in front of the third if `gap` is a blank. -/
def optionsText (gap : Bytes) : Bytes :=
  blank :: (spaced (ascii "-o") ++ spaced (ascii "UserKnownHostsFile=/dev/null") ++
    spaced (ascii "-o") ++ spaced (ascii "StrictHostKeyChecking=no") ++ gap ++
    spaced (ascii "-o") ++ spaced (ascii "LogLevel=quiet"))

/-- The whole line. -/
def sshLine (gap : Bytes) (l : Login) (remote : Bytes) : Bytes :=
  spaced (ascii "ssh") ++ spaced (ascii "-i") ++ l.sshkey ++ optionsText gap ++
    spaced (l.accessUser ++ ascii "@" ++ l.IP) ++ singleQuote :: (remote ++ [singleQuote])

theorem generateSshCmd_eq {l : Login} (h : l.IP ≠ ascii "127.0.0.1") (ssh : Bytes)
    (useSudo : Bool) :
    generateSshCmd l ssh useSudo = sshLine [blank] l (command l ssh useSudo) := by
  have hstart : ascii "ssh -i " = spaced (ascii "ssh") ++ spaced (ascii "-i") := rfl
  have hoptions : ascii (" -o UserKnownHostsFile=/dev/null" ++
      " -o StrictHostKeyChecking=no  -o LogLevel=quiet ") = optionsText [blank] := rfl
  have hopen : ascii " '" = [blank, singleQuote] := rfl
  have hclose : ascii "'" = [singleQuote] := rfl
  rw [generateSshCmd, if_neg h, hstart, hoptions, hopen, hclose, command]
  cases useSudo <;> simp [sshLine, spaced]

theorem generateSshCmdMaxscale_eq {l : Login} (h : l.IP ≠ ascii "127.0.0.1") (ssh : Bytes)
    (useSudo : Bool) :
    generateSshCmdMaxscale l ssh useSudo = sshLine [] l (command l ssh useSudo) := by
  have hstart : ascii "ssh -i " = spaced (ascii "ssh") ++ spaced (ascii "-i") := rfl
  have hoptions : ascii (" -o UserKnownHostsFile=/dev/null" ++
      " -o StrictHostKeyChecking=no -o LogLevel=quiet ") = optionsText [] := rfl
  have hopen : ascii " '" = [blank, singleQuote] := rfl
  have hclose : ascii "'" = [singleQuote] := rfl
  rw [generateSshCmdMaxscale, if_neg h, hstart, hoptions, hopen, hclose, command]
  cases useSudo <;> simp [sshLine, spaced]

/-- The words of a line are those in front of the command, and those of the quoted command. -/
theorem words_sshLine {l : Login} (h : l.Remote) {gap : Bytes} (hgap : gap = [] ∨ gap = [blank])
    (remote : Bytes) :
    words (sshLine gap l remote) =
      (words (singleQuote :: (remote ++ [singleQuote]))).map (sshWords l ++ ·) := by
  have hfront : sshLine gap l remote =
      [ascii "ssh", ascii "-i", l.sshkey, ascii "-o", ascii "UserKnownHostsFile=/dev/null",
        ascii "-o", ascii "StrictHostKeyChecking=no"].flatMap spaced ++ (gap ++
          ([ascii "-o", ascii "LogLevel=quiet", l.accessUser ++ ascii "@" ++ l.IP].flatMap spaced ++
            singleQuote :: (remote ++ [singleQuote]))) := by
    simp [sshLine, optionsText, spaced]
  have hskip : ∀ s, words (gap ++ s) = words s := by
    intro s
    rcases hgap with rfl | rfl
    · rfl
    · exact words_blank s
  have huser : ∀ c ∈ l.accessUser ++ ascii "@" ++ l.IP, Plain c := by
    intro c hc
    rcases List.mem_append.mp hc with hc | hc
    · rcases List.mem_append.mp hc with hc | hc
      · exact h.userPlain c hc
      · exact forall_plain (w := ascii "@") (by decide) c hc
    · exact h.addressPlain c hc
  rw [hfront, words_spaced, hskip, words_spaced, Option.map_map]
  · rfl
  · simp only [List.forall_mem_cons, List.not_mem_nil, false_implies, implies_true, and_true]
    exact ⟨by decide, by decide, by simp [ascii]⟩
  · simp only [List.forall_mem_cons, List.not_mem_nil, false_implies, implies_true, and_true]
    exact ⟨forall_plain (by decide), forall_plain (by decide), huser⟩
  · simp only [List.forall_mem_cons, List.not_mem_nil, false_implies, implies_true, and_true]
    exact ⟨by decide, by decide, h.key, by decide, by decide, by decide, by decide⟩
  · simp only [List.forall_mem_cons, List.not_mem_nil, false_implies, implies_true, and_true]
    exact ⟨forall_plain (by decide), forall_plain (by decide), h.keyPlain,
      forall_plain (by decide), forall_plain (by decide), forall_plain (by decide),
      forall_plain (by decide)⟩

/-! ### The command -/

/-- **Quoting.** With either class `ssh` gets the command as it has been given exactly when there is
    no single quote in it. -/
theorem ssh_command_arrives_iff (l : Login) (h : l.Remote) (ssh : Bytes) (useSudo : Bool) :
    (words (generateSshCmd l ssh useSudo) = some (sshWords l ++ [command l ssh useSudo]) ↔
        singleQuote ∉ command l ssh useSudo) ∧
      (words (generateSshCmdMaxscale l ssh useSudo) = some (sshWords l ++ [command l ssh useSudo]) ↔
        singleQuote ∉ command l ssh useSudo) := by
  have hline : ∀ gap, gap = [] ∨ gap = [blank] →
      (words (sshLine gap l (command l ssh useSudo)) =
          some (sshWords l ++ [command l ssh useSudo]) ↔ singleQuote ∉ command l ssh useSudo) := by
    intro gap hgap
    rw [words_sshLine h hgap, ← words_single_iff, Option.map_eq_some_iff]
    constructor
    · rintro ⟨ws, hws, heq⟩
      rw [hws, List.append_cancel_left heq]
    · intro hws
      exact ⟨_, hws, rfl⟩
  rw [generateSshCmd_eq h.remote, generateSshCmdMaxscale_eq h.remote]
  exact ⟨hline [blank] (.inr rfl), hline [] (.inl rfl)⟩

/-- A node on another machine. -/
def exampleLogin : Login where
  IP := ascii "192.168.122.101"
  sshkey := ascii "/home/vagrant/node.pem"
  accessUser := ascii "vagrant"
  accessSudo := ascii "sudo"

theorem exampleLogin_remote : exampleLogin.Remote where
  remote := by decide
  key := by decide
  keyPlain := forall_plain (by decide)
  userPlain := forall_plain (by decide)
  addressPlain := forall_plain (by decide)

theorem ssh_command_arrives_stop :
    (words (generateSshCmd exampleLogin (ascii "/etc/init.d/mysql stop") true) =
          some (sshWords exampleLogin ++
            [command exampleLogin (ascii "/etc/init.d/mysql stop") true]) ↔
        singleQuote ∉ command exampleLogin (ascii "/etc/init.d/mysql stop") true) ∧
      (words (generateSshCmdMaxscale exampleLogin (ascii "/etc/init.d/mysql stop") true) =
          some (sshWords exampleLogin ++
            [command exampleLogin (ascii "/etc/init.d/mysql stop") true]) ↔
        singleQuote ∉ command exampleLogin (ascii "/etc/init.d/mysql stop") true) :=
  ssh_command_arrives_iff exampleLogin exampleLogin_remote (ascii "/etc/init.d/mysql stop") true

/-- The tools of `clean_iptables`. -/
inductive Tables where
  | iptables
  | ip6tables

def Tables.name : Tables → Bytes
  | .iptables => ascii "iptables"
  | .ip6tables => ascii "ip6tables"

/-- What stands in front of the port in the command, and behind it. -/
def cleanFront (tool : Tables) : Bytes :=
  ascii "echo \"while [ \\\"\\$(" ++ tool.name ++ ascii " -n -L INPUT 1|grep "

def cleanBack (tool : Tables) : Bytes :=
  ascii ")\\\" != \\\"\\\" ]; do " ++ tool.name ++
    ascii " -D INPUT 1; done\" >>  clean_iptables.sh"

/-- The command with which `clean_iptables` writes a loop of its script; `quote` stands around the
    port. -/
def cleanLine (quote : Bytes) (tool : Tables) (port : ℤ) : Bytes :=
  cleanFront tool ++ quote ++ Decimal.ofInt port ++ quote ++ cleanBack tool

theorem plain_of_isdigit {c : UInt8} (h : isdigit c = true) : Plain c := by
  have hten : ∀ n < 10, Plain (UInt8.ofNat (48 + n)) := by decide
  simp only [isdigit, Bool.and_eq_true, decide_eq_true_eq, UInt8.le_iff_toNat_le] at h
  have hlow : 48 ≤ c.toNat := h.1
  have hhigh : c.toNat ≤ 57 := h.2
  have hc := hten (c.toNat - 48) (by omega)
  rwa [Nat.add_sub_of_le hlow, UInt8.ofNat_toNat] at hc

/-- A number needs no quotes. -/
theorem plain_of_mem_ofInt {z : ℤ} {c : UInt8} (h : c ∈ Decimal.ofInt z) : Plain c := by
  have hdigits : c ∈ Decimal.ofNat z.natAbs → Plain c :=
    fun hmem => plain_of_isdigit (Decimal.isdigit_of_mem_ofNat hmem)
  rw [Decimal.ofInt] at h
  split at h
  · rcases List.mem_cons.mp h with rfl | h
    · decide
    · exact hdigits h
  · exact hdigits h

/-- **The script of `clean_iptables`.** The single quotes around the port are those of the line
    itself, so that the port is written to the script without quotes, and nothing else is lost. -/
theorem clean_iptables_arrives (l : Login) (h : l.Remote) (tool : Tables) (port : ℤ) :
    words (generateSshCmd l (cleanLine (ascii "'") tool port) false) =
      some (sshWords l ++ [cleanLine [] tool port]) := by
  have hquote : ascii "'" = [singleQuote] := rfl
  have hquoted : cleanLine (ascii "'") tool port =
      quotedPieces [(cleanFront tool, Decimal.ofInt port)] ++ cleanBack tool := by
    rw [hquote]
    simp [cleanLine, cleanFront, cleanBack, quotedPieces]
  have hbare : cleanLine [] tool port =
      barePieces [(cleanFront tool, Decimal.ofInt port)] ++ cleanBack tool := by
    simp [cleanLine, cleanFront, cleanBack, barePieces]
  have hfront : singleQuote ∉ cleanFront tool := by cases tool <;> decide
  have hback : singleQuote ∉ cleanBack tool := by cases tool <;> decide
  rw [generateSshCmd_eq h.remote, words_sshLine h (.inr rfl), hbare]
  show (words (singleQuote :: (cleanLine (ascii "'") tool port ++ [singleQuote]))).map _ = _
  rw [hquoted, words_pieces (by simpa using hfront)
    (by simpa using fun c hc => plain_of_mem_ofInt hc) hback]
  rfl

theorem clean_iptables_arrives_3306 :
    words (generateSshCmd exampleLogin (cleanLine (ascii "'") .iptables 3306) false) =
      some (sshWords exampleLogin ++ [cleanLine [] .iptables 3306]) :=
  clean_iptables_arrives exampleLogin exampleLogin_remote .iptables 3306

end MaxScaleSystemTest.Nodes
