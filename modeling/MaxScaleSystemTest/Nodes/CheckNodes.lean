import MaxScaleSystemTest.Lib.Decimal
import MaxScaleSystemTest.Nodes.FixReplication

namespace MaxScaleSystemTest.Nodes

open CString

/-!
# Probing the machines before a repair

`fix_replication` gives up when `check_nodes` finds a machine that does not answer.  The
probe of a node, `check_node_ssh`, runs its command on node 0 whatever node it is asked for.

* `checkNodes_of_exited`, `checkNodes_of_overflow` — what `check_nodes` returns;
* `checkNodes_zero_of_repair` — repairs take place behind a `check_nodes` that returned 0;
* `check_nodes_guards_iff` — when this means that every machine can be reached.
-/

/-- What `system` returns: the process has exited, or was killed. -/
inductive WaitStatus where
  | exited (code : UInt8)
  | killed

/-- How a node is reached. -/
structure Login where
  IP : Bytes
  sshkey : Bytes
  accessUser : Bytes
  accessSudo : Bytes

/-- The nodes, and what `system` makes of a command line. -/
structure Vms where
  N : ℕ
  login : ℕ → Login
  system : Bytes → WaitStatus

/-- `generate_ssh_cmd`. -/
def generateSshCmd (l : Login) (ssh : Bytes) (useSudo : Bool) : Bytes :=
  if l.IP = ascii "127.0.0.1" then
    if useSudo then l.accessSudo ++ ascii " " ++ ssh else ssh
  else
    let connect := ascii "ssh -i " ++ l.sshkey ++ ascii (" -o UserKnownHostsFile=/dev/null" ++
      " -o StrictHostKeyChecking=no  -o LogLevel=quiet ") ++ l.accessUser ++ ascii "@" ++ l.IP
    if useSudo then connect ++ ascii " '" ++ l.accessSudo ++ ascii " " ++ ssh ++ ascii "'"
    else connect ++ ascii " '" ++ ssh ++ ascii "'"

/-- `ssh_node`; `none` when the command line overflows the array `sys`. -/
def sshNode (vms : Vms) (node : ℕ) (ssh : Bytes) (useSudo : Bool) : Option ℕ :=
  let sys := generateSshCmd (vms.login node) ssh useSudo
  if sys.length < ssh.length + 1024 then
    match vms.system sys with
    | .exited code => some code.toNat
    | .killed => some 256
  else none

/-- A result with the text printed on the way to it. -/
structure Probe where
  res : ℤ
  stdout : Bytes

/-- `check_node_ssh`. -/
def checkNodeSsh (vms : Vms) (node : ℕ) : Option Probe := do
  let checking := ascii "Checking node " ++ Decimal.ofNat node ++ [nl]
  -- the node that is probed is node 0
  let code ← sshNode vms 0 (ascii "ls > /dev/null") false
  if code ≠ 0 then
    return ⟨1, checking ++ (ascii "Node " ++ Decimal.ofNat node ++ ascii " is not available\n")⟩
  return ⟨0, checking ++ (ascii "Node " ++ Decimal.ofNat node ++ ascii " is OK\n")⟩

/-- The body of the loop in `check_nodes`. -/
def addProbe (vms : Vms) (sum : Probe) (node : ℕ) : Option Probe := do
  let probe ← checkNodeSsh vms node
  return ⟨sum.res + probe.res, sum.stdout ++ probe.stdout⟩

/-- `check_nodes`. -/
def checkNodes (vms : Vms) : Option Probe := (List.range vms.N).foldlM (addProbe vms) ⟨0, []⟩

/-- The command of the probe succeeds on a node. -/
def Reachable (vms : Vms) (node : ℕ) : Prop :=
  sshNode vms node (ascii "ls > /dev/null") false = some 0

/-! ### What `check_nodes` returns -/

variable (vms : Vms)

/-- Every probe has the result of the command on node 0. -/
theorem checkNodeSsh_of_exited {code : ℕ}
    (h : sshNode vms 0 (ascii "ls > /dev/null") false = some code) (node : ℕ) :
    ∃ stdout, checkNodeSsh vms node = some ⟨if code = 0 then 0 else 1, stdout⟩ := by
  unfold checkNodeSsh
  rw [h]
  by_cases hcode : code = 0
  · subst hcode
    exact ⟨_, rfl⟩
  · rw [if_neg hcode]
    show ∃ stdout, (if code ≠ 0 then some (Probe.mk 1 _) else some ⟨0, _⟩) = some ⟨1, stdout⟩
    rw [if_pos hcode]
    exact ⟨_, rfl⟩

/-- The loop counts every node when node 0 does not answer, and none when it does. -/
theorem foldlM_addProbe {code : ℕ}
    (h : sshNode vms 0 (ascii "ls > /dev/null") false = some code) (n : ℕ) :
    ∃ stdout, (List.range n).foldlM (addProbe vms) ⟨0, []⟩
      = some ⟨if code = 0 then 0 else n, stdout⟩ := by
  induction n with
  | zero => exact ⟨[], by simp⟩
  | succ n ih =>
    obtain ⟨stdout, hrest⟩ := ih
    obtain ⟨text, hprobe⟩ := checkNodeSsh_of_exited vms h n
    have hadd : ∀ sum, addProbe vms sum n
        = some ⟨sum.res + if code = 0 then 0 else 1, sum.stdout ++ text⟩ := by
      intro sum
      rw [addProbe, hprobe]
      rfl
    refine ⟨stdout ++ text, ?_⟩
    rw [List.range_succ, List.foldlM_append, hrest]
    simp only [Option.bind_eq_bind, Option.bind_some, List.foldlM_cons, List.foldlM_nil, hadd]
    by_cases hcode : code = 0
    · simp [hcode]
    · simp [hcode]

/-- `check_nodes` behind a command on node 0 that comes back. -/
theorem checkNodes_of_exited {code : ℕ}
    (h : sshNode vms 0 (ascii "ls > /dev/null") false = some code) :
    ∃ stdout, checkNodes vms = some ⟨if code = 0 then 0 else vms.N, stdout⟩ :=
  foldlM_addProbe vms h vms.N

/-- The first probe already fails to come back. -/
theorem checkNodes_of_overflow (h : sshNode vms 0 (ascii "ls > /dev/null") false = none)
    (hN : 0 < vms.N) : checkNodes vms = none := by
  have hprobe : checkNodeSsh vms 0 = none := by
    unfold checkNodeSsh
    rw [h]
    rfl
  obtain ⟨n, hn⟩ := Nat.exists_eq_add_one_of_ne_zero (Nat.ne_of_gt hN)
  rw [checkNodes, hn, List.range_succ_eq_map, List.foldlM_cons, addProbe, hprobe]
  rfl

/-! ### The guard of `fix_replication` -/

/-- The calls that change the replication. -/
def IsRepair (c : NodeCall) : Prop := c = .startReplication ∨ c = .cleanupDbNodes

/-- Repairs take place behind a `check_nodes` that returned 0. -/
theorem checkNodes_zero_of_repair (env : Outcomes) {c : NodeCall} (hc : IsRepair c)
    (h : 0 < timesCalled c (fixReplication env).2) : env .checkNodes 0 = 0 := by
  by_contra hnodes
  have hne : c ≠ .checkReplication ∧ c ≠ .unblockAllNodes ∧ c ≠ .checkNodes := by
    rcases hc with rfl | rfl <;> decide
  -- the log ends before any repair
  by_cases hcheck : env .checkReplication 0 = 0
  · rw [fixReplication_of_ok env hcheck] at h
    simp [timesCalled, perform, hne.1.symm] at h
  · rw [fixReplication_of_unreachable env hcheck hnodes] at h
    simp [timesCalled, loopLog, perform, call, hne.1.symm, hne.2.1.symm, hne.2.2.symm] at h

/-- `check_nodes` returns 0 if and only if every machine can be reached, and so whatever else
    happens `fix_replication` repairs nothing while one cannot. -/
structure GuardsRepair : Prop where
  verdict : (∃ stdout, checkNodes vms = some ⟨0, stdout⟩) ↔ ∀ i < vms.N, Reachable vms i
  repairs : ∀ env stdout, checkNodes vms = some ⟨env .checkNodes 0, stdout⟩ →
    ∀ c, IsRepair c → 0 < timesCalled c (fixReplication env).2 → ∀ i < vms.N, Reachable vms i

/-- The verdict is right when node 0 is among the machines that cannot be reached, and when
    there are none of these. -/
theorem checkNodes_zero_iff (h : ¬ Reachable vms 0 ∨ ∀ i < vms.N, Reachable vms i) :
    (∃ stdout, checkNodes vms = some ⟨0, stdout⟩) ↔ ∀ i < vms.N, Reachable vms i := by
  by_cases hN : vms.N = 0
  · -- without nodes there is nothing to probe
    refine iff_of_true ⟨[], ?_⟩ fun i hi => ?_
    · rw [checkNodes, hN]
      rfl
    · omega
  have hzero : 0 < vms.N := Nat.pos_of_ne_zero hN
  cases hcode : sshNode vms 0 (ascii "ls > /dev/null") false with
  | none =>
    have hunreachable : ¬ Reachable vms 0 := by
      rw [Reachable, hcode]
      nofun
    refine iff_of_false ?_ fun hall => hunreachable (hall 0 hzero)
    rw [checkNodes_of_overflow vms hcode hzero]
    nofun
  | some code =>
    obtain ⟨stdout, hres⟩ := checkNodes_of_exited vms hcode
    by_cases hc : code = 0
    · -- node 0 answers, so all do
      have hreach : Reachable vms 0 := by rw [Reachable, hcode, hc]
      refine iff_of_true ⟨stdout, ?_⟩ (h.resolve_left (not_not.mpr hreach))
      rw [hres, if_pos hc]
    · have hunreachable : ¬ Reachable vms 0 := by
        rw [Reachable, hcode, Option.some.injEq]
        exact hc
      refine iff_of_false ?_ fun hall => hunreachable (hall 0 hzero)
      rintro ⟨stdout', hzero'⟩
      rw [hres, if_neg hc, Option.some.injEq, Probe.mk.injEq] at hzero'
      omega

/-- **When the guard holds.** `check_nodes` guards the repair exactly when node 0 cannot be
    reached or all nodes can. -/
theorem check_nodes_guards_iff :
    GuardsRepair vms ↔ ¬ Reachable vms 0 ∨ ∀ i < vms.N, Reachable vms i := by
  constructor
  · intro h
    by_cases hreach : Reachable vms 0
    · obtain ⟨stdout, hres⟩ := checkNodes_of_exited vms hreach
      exact .inr (h.verdict.mp ⟨stdout, hres⟩)
    · exact .inl hreach
  · intro h
    refine ⟨checkNodes_zero_iff vms h, fun env stdout hres c hc hcalled => ?_⟩
    rw [checkNodes_zero_of_repair env hc hcalled] at hres
    exact (checkNodes_zero_iff vms h).mp ⟨stdout, hres⟩

/-- Two nodes, of which the second does not answer. -/
def secondDown : Vms where
  N := 2
  login i := {
    IP := ascii (if i = 0 then "192.168.121.10" else "192.168.121.11")
    sshkey := ascii "/root/vagrant.pem"
    accessUser := ascii "vagrant"
    accessSudo := ascii "sudo " }
  system cmd := if (strstr cmd (ascii "@192.168.121.11 ")).isSome then .exited 255 else .exited 0

/-- `check_nodes` returns 0 although the second node does not answer. -/
theorem second_down_unnoticed : ¬ GuardsRepair secondDown := by
  intro h
  have hfirst : Reachable secondDown 0 := by
    unfold Reachable
    decide +kernel
  have hsecond : ¬ Reachable secondDown 1 := by
    unfold Reachable
    decide +kernel
  obtain ⟨stdout, hres⟩ := checkNodes_of_exited secondDown hfirst
  exact hsecond (h.verdict.mp ⟨stdout, hres⟩ 1 (by decide))

end MaxScaleSystemTest.Nodes
