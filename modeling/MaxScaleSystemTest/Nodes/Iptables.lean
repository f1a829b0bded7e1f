import MaxScaleSystemTest.Lib.Decimal
import MaxScaleSystemTest.Lib.While
import Mathlib.Data.List.FinRange
import Mathlib.Logic.Function.Basic

namespace MaxScaleSystemTest.Nodes.Iptables

open CString

/-!
# Blocking a node with iptables

`block_node` and `unblock_node` first delete rules from the head of the `INPUT` chain for as
long as the head, as it is printed, contains the digits of the port, and then insert a rule
of their own.  Both steps are commands run on the node over ssh; the deleting loop is a
script written there line by line.

* `exec_setTarget` — what the commands leave of a chain;
* `setNode_inv`, `runCalls_inv`, `destroy_inv` — one call, a sequence of calls and the
  destructor keep the rule of the last call at the head of the node's chains;
* `block_last_wins` — the last call decides.
-/

/-- The two commands, one for each version of the protocol. -/
inductive Tool where
  | iptables
  | ip6tables
  deriving DecidableEq

/-- What happens to a packet. -/
inductive Target where
  | accept
  | reject
  | drop
  deriving DecidableEq

/-- A packet, as far as rules look at it. -/
structure Packet where
  source : Bytes
  tcp : Bool
  dport : ℕ

/-- A rule: what `-n -L` prints for it, and what it decides, `none` where it does not match. -/
structure Rule where
  text : Bytes
  decides : Packet → Option Target

/-- A node's machine: the loops in its script `clean_iptables.sh`, each with its command and
    the text it looks for, and the two `INPUT` chains. -/
structure Machine where
  script : List (Tool × Bytes)
  executable : Bool
  chain : Tool → List Rule

/-- The first matching rule decides; `none` leaves the packet to the policy of the chain. -/
def decision (chain : List Rule) (p : Packet) : Option Target :=
  chain.findSome? fun rule => rule.decides p

/-- Every packet to the port meets the target. -/
def Meets (target : Target) (chain : List Rule) (port : ℕ) : Prop :=
  ∀ p : Packet, p.tcp = true → p.dport = port → decision chain p = some target

/-! ### The commands -/

/-- The commands `clean_iptables`, `block_node` and `unblock_node` run on a node. -/
inductive Command where
  | echoHeader
  | echoLoop (tool : Tool) (pattern : Bytes)
  | chmod
  | runScript
  | insertRule (tool : Tool) (target : Target) (port : ℕ)

/-- Replace one chain. -/
def Machine.setChain (m : Machine) (tool : Tool) (chain : List Rule) : Machine :=
  { m with chain := Function.update m.chain tool chain }

/-- `"$(tool -n -L INPUT 1|grep 'pattern')" != ""`. -/
def headPrints (tool : Tool) (pattern : Bytes) (m : Machine) : Bool :=
  match m.chain tool with
  | [] => false
  | rule :: _ => (strstr rule.text pattern).isSome

/-- `tool -D INPUT 1`. -/
def deleteHead (tool : Tool) (m : Machine) : Machine := m.setChain tool (m.chain tool).tail

/-- One loop of the script. -/
def cleanLoop (fuel : ℕ) (line : Tool × Bytes) (m : Machine) : Option Machine :=
  While.loop (headPrints line.1 line.2) (deleteHead line.1) fuel m

section Calls

-- what `-n -L INPUT 1` prints for `-p tcp --dport port -j target`
variable (printed : Tool → Target → ℕ → Bytes)

/-- The rule `-p tcp --dport port -j target`. -/
def portRule (tool : Tool) (target : Target) (port : ℕ) : Rule where
  text := printed tool target port
  decides p := if p.tcp && p.dport = port then some target else none

/-- What a command does to the machine; `none` for a loop that takes more than `fuel` checks
    of its guard. -/
def exec (fuel : ℕ) (m : Machine) : Command → Option Machine
  | .echoHeader => some { m with script := [] }
  | .echoLoop tool pattern => some { m with script := m.script ++ [(tool, pattern)] }
  | .chmod => some { m with executable := true }
  | .runScript =>
    if m.executable then m.script.foldlM (fun m line => cleanLoop fuel line m) m else some m
  | .insertRule tool target port =>
    some (m.setChain tool (portRule printed tool target port :: m.chain tool))

/-- `clean_iptables`. -/
def cleanIptables (port : ℕ) : List Command :=
  [.echoHeader, .echoLoop .iptables (Decimal.ofNat port),
    .echoLoop .ip6tables (Decimal.ofNat port), .chmod, .runScript]

/-- The commands of `block_node` and `unblock_node`, which differ in the target only. -/
def setTarget (target : Target) (port : ℕ) : List Command :=
  cleanIptables port ++ [.insertRule .iptables target port, .insertRule .ip6tables target port]

/-- The nodes' machines and the array `blocked`. -/
structure NodesState (N : ℕ) where
  machine : Fin N → Machine
  blocked : Fin N → Bool

variable {N : ℕ} (port : Fin N → ℕ) (fuel : ℕ)

/-- What `block_node` and `unblock_node` do: run the commands, then set `blocked[node]`. -/
def setNode (target : Target) (blocked : Bool) (node : Fin N) (st : NodesState N) :
    Option (NodesState N) := do
  let m ← (setTarget target (port node)).foldlM (exec printed fuel) (st.machine node)
  return { machine := Function.update st.machine node m
           blocked := Function.update st.blocked node blocked }

/-- `Mariadb_nodes::block_node`. -/
def blockNode (node : Fin N) (st : NodesState N) : Option (NodesState N) :=
  setNode printed port fuel .reject true node st

/-- `Mariadb_nodes::unblock_node`. -/
def unblockNode (node : Fin N) (st : NodesState N) : Option (NodesState N) :=
  setNode printed port fuel .accept false node st

/-- `Mariadb_nodes::unblock_all_nodes`. -/
def unblockAllNodes (st : NodesState N) : Option (NodesState N) :=
  (List.finRange N).foldlM (fun st i => unblockNode printed port fuel i st) st

/-- The destructor. -/
def destroy (st : NodesState N) : Option (NodesState N) :=
  (List.finRange N).foldlM
    (fun st i => if st.blocked i then unblockNode printed port fuel i st else some st) st

/-- A call of `block_node` or `unblock_node`. -/
inductive Call (N : ℕ) where
  | block (node : Fin N)
  | unblock (node : Fin N)
  deriving DecidableEq

/-- The node a call is about. -/
def Call.node : Call N → Fin N
  | .block i => i
  | .unblock i => i

/-- The target of the rule a call inserts. -/
def Call.target : Call N → Target
  | .block _ => .reject
  | .unblock _ => .accept

/-- Make a call. -/
def call (st : NodesState N) : Call N → Option (NodesState N)
  | .block i => blockNode printed port fuel i st
  | .unblock i => unblockNode printed port fuel i st

/-- Make calls one after the other. -/
def runCalls (calls : List (Call N)) (st : NodesState N) : Option (NodesState N) :=
  calls.foldlM (call printed port fuel) st

/-- `unblock_all_nodes` is a sequence of calls. -/
theorem unblockAllNodes_eq (st : NodesState N) :
    unblockAllNodes printed port fuel st
      = runCalls printed port fuel ((List.finRange N).map .unblock) st := by
  rw [runCalls, List.foldlM_map]
  rfl

end Calls

/-- A new object: the constructor clears `blocked`. -/
def newNodes {N : ℕ} (initial : Fin N → Machine) : NodesState N where
  machine := initial
  blocked := fun _ => false

/-- The target of the last call on each node, after further calls. -/
def lastTarget {N : ℕ} (last : Fin N → Option Target) (calls : List (Call N)) :
    Fin N → Option Target :=
  calls.foldl (fun last c => Function.update last c.node (some c.target)) last

/-- The last call on a node. -/
def lastCall {N : ℕ} (calls : List (Call N)) (node : Fin N) : Option (Call N) :=
  (calls.filter fun c => c.node = node).getLast?

/-- The last call on a node decides its target. -/
theorem lastTarget_apply {N : ℕ} (last : Fin N → Option Target) (calls : List (Call N))
    (node : Fin N) :
    lastTarget last calls node =
      match lastCall calls node with
      | some c => some c.target
      | none => last node := by
  induction calls generalizing last with
  | nil => rfl
  | cons c calls ih =>
    show lastTarget (Function.update last c.node (some c.target)) calls node = _
    rw [ih, lastCall, lastCall]
    by_cases hc : c.node = node
    · -- the call counts unless a later one is about the same node
      rw [List.filter_cons_of_pos (by simpa using hc), List.getLast?_cons]
      cases (calls.filter fun c => c.node = node).getLast? with
      | none => simp [← hc]
      | some d => rfl
    · rw [List.filter_cons_of_neg (by simpa using hc)]
      simp [Ne.symm hc]

/-! ### One clean-up loop -/

@[simp] theorem setChain_chain (m : Machine) (tool : Tool) (chain : List Rule) :
    (m.setChain tool chain).chain = Function.update m.chain tool chain := rfl

/-- The digits occur in what is printed for the rule. -/
def prints (pattern : Bytes) (rule : Rule) : Bool := (strstr rule.text pattern).isSome

theorem prints_of_substring {pattern : Bytes} {rule : Rule} (h : pattern <:+: rule.text) :
    prints pattern rule :=
  (strstr_isSome_iff _ _).mpr h

/-- The guard looks at a rule at the head. -/
theorem headPrints_iff {tool : Tool} {pattern : Bytes} {m : Machine} :
    headPrints tool pattern m ↔
      ∃ rule chain, m.chain tool = rule :: chain ∧ prints pattern rule := by
  unfold headPrints
  split
  · rename_i hchain
    simp [hchain]
  · rename_i rule chain hchain
    simp [hchain, prints]

/-- The loop ends, as every round deletes a rule. -/
theorem cleanLoop_ends {fuel : ℕ} (line : Tool × Bytes) {m : Machine}
    (hfuel : (m.chain line.1).length < fuel) : ∃ m', cleanLoop fuel line m = some m' := by
  apply While.loop_of_measure (fun m => (m.chain line.1).length) _ hfuel
  intro m hguard
  obtain ⟨rule, chain, hchain, -⟩ := headPrints_iff.mp hguard
  simp [deleteHead, hchain]

/-- What the loop leaves: its chain without the first rules that print the pattern, and the
    other chain. -/
theorem cleanLoop_spec {fuel : ℕ} {line : Tool × Bytes} {m m' : Machine}
    (h : cleanLoop fuel line m = some m') :
    m'.chain line.1 = (m.chain line.1).dropWhile (prints line.2) ∧
      ∀ tool ≠ line.1, m'.chain tool = m.chain tool := by
  have hinv : (m'.chain line.1).dropWhile (prints line.2)
        = (m.chain line.1).dropWhile (prints line.2) ∧
      ∀ tool ≠ line.1, m'.chain tool = m.chain tool := by
    apply While.loop_invariant (fun s => (s.chain line.1).dropWhile (prints line.2)
        = (m.chain line.1).dropWhile (prints line.2) ∧
      ∀ tool ≠ line.1, s.chain tool = m.chain tool) _ h ⟨rfl, fun _ _ => rfl⟩
    rintro s hguard ⟨hdrop, hframe⟩
    obtain ⟨rule, chain, hchain, hprints⟩ := headPrints_iff.mp hguard
    refine ⟨?_, fun tool htool => ?_⟩
    · rw [← hdrop, hchain, List.dropWhile_cons_of_pos hprints]
      simp [deleteHead, hchain]
    · simpa [deleteHead, htool] using hframe tool htool
  -- at the end no rule at the head prints the pattern
  have hend := While.guard_of_loop h
  refine ⟨?_, hinv.2⟩
  rw [← hinv.1]
  cases hchain : m'.chain line.1 with
  | nil => rfl
  | cons rule chain =>
    rw [List.dropWhile_cons_of_neg]
    exact fun hprints => hend (headPrints_iff.mpr ⟨rule, chain, hchain, hprints⟩)

/-! ### One call -/

section Calls

variable (printed : Tool → Target → ℕ → Bytes)

/-- The machine whose script has been written. -/
def scriptWritten (port : ℕ) (m : Machine) : Machine where
  script := [(.iptables, Decimal.ofNat port), (.ip6tables, Decimal.ofNat port)]
  executable := true
  chain := m.chain

/-- `clean_iptables` writes its script and runs the two loops. -/
theorem exec_cleanIptables (fuel port : ℕ) (m : Machine) :
    (cleanIptables port).foldlM (exec printed fuel) m =
      (cleanLoop fuel (.iptables, Decimal.ofNat port) (scriptWritten port m)).bind
        (cleanLoop fuel (.ip6tables, Decimal.ofNat port)) := by
  show (scriptWritten port m).script.foldlM (fun m line => cleanLoop fuel line m) _ >>= some = _
  simp [scriptWritten]

/-- The commands of a call end, and put the call's own rule in the place of the first rules of
    each chain that print the port. -/
theorem exec_setTarget {fuel : ℕ} (target : Target) (port : ℕ) {m : Machine}
    (hfuel : ∀ tool, (m.chain tool).length < fuel) :
    ∃ m', (setTarget target port).foldlM (exec printed fuel) m = some m' ∧
      ∀ tool, m'.chain tool = portRule printed tool target port ::
        (m.chain tool).dropWhile (prints (Decimal.ofNat port)) := by
  obtain ⟨m₁, hm₁⟩ := cleanLoop_ends (.iptables, Decimal.ofNat port) (m := scriptWritten port m)
    (hfuel .iptables)
  obtain ⟨hdrop4, hframe4⟩ := cleanLoop_spec hm₁
  -- the first loop leaves the other chain alone
  have hsix : m₁.chain .ip6tables = m.chain .ip6tables := hframe4 .ip6tables nofun
  obtain ⟨m₂, hm₂⟩ := cleanLoop_ends (.ip6tables, Decimal.ofNat port) (m := m₁)
    (hsix ▸ hfuel .ip6tables)
  obtain ⟨hdrop6, hframe6⟩ := cleanLoop_spec hm₂
  have hfour : m₂.chain .iptables = m₁.chain .iptables := hframe6 .iptables nofun
  have hrun : (setTarget target port).foldlM (exec printed fuel) m = some
      ((m₂.setChain .iptables
          (portRule printed .iptables target port :: m₂.chain .iptables)).setChain .ip6tables
        (portRule printed .ip6tables target port :: m₂.chain .ip6tables)) := by
    rw [setTarget, List.foldlM_append, exec_cleanIptables, hm₁, Option.bind_some, hm₂]
    rfl
  refine ⟨_, hrun, fun tool => ?_⟩
  match tool with
  | .iptables => simp [hfour, hdrop4, scriptWritten]
  | .ip6tables => simp [hdrop6, hsix]

/-! ### The invariant -/

/-- A node after calls with `last` as the target of the last one: its machine is untouched
    before the first call, and later each chain is the rule of the last call before a tail of
    the initial chain. -/
structure NodeInv (port : ℕ) (initial m : Machine) (blocked : Bool) (last : Option Target) :
    Prop where
  flag : blocked = decide (last = some .reject)
  untouched : last = none → m = initial
  ruled : ∀ target, last = some target → ∀ tool, ∃ rest,
    m.chain tool = portRule printed tool target port :: rest ∧ rest <:+ initial.chain tool

variable {printed} {port : ℕ} {initial m : Machine} {blocked : Bool} {last : Option Target}

/-- A chain is never more than one rule longer than at the start. -/
theorem NodeInv.length_le (h : NodeInv printed port initial m blocked last) (tool : Tool) :
    (m.chain tool).length ≤ (initial.chain tool).length + 1 := by
  match last with
  | none =>
    rw [h.untouched rfl]
    exact Nat.le_succ _
  | some target =>
    obtain ⟨rest, hchain, hrest⟩ := h.ruled target rfl tool
    rw [hchain, List.length_cons]
    exact Nat.succ_le_succ hrest.length_le

/-- A rule at the head decides about every packet to its port. -/
theorem meets_portRule (tool : Tool) (target : Target) (port : ℕ) (rest : List Rule) :
    Meets target (portRule printed tool target port :: rest) port := by
  intro p htcp hport
  simp [decision, portRule, htcp, hport]

/-- The traffic to the port meets the target of the last call. -/
theorem NodeInv.meets (h : NodeInv printed port initial m blocked last) {target : Target}
    (hlast : last = some target) (tool : Tool) : Meets target (m.chain tool) port := by
  obtain ⟨rest, hchain, -⟩ := h.ruled target hlast tool
  rw [hchain]
  exact meets_portRule tool target port rest

/-- All traffic to a port meets one target at most. -/
theorem Meets.unique {target target' : Target} {chain : List Rule}
    (h : Meets target chain port) (h' : Meets target' chain port) : target = target' := by
  have hone := h ⟨[], true, port⟩ rfl rfl
  have htwo := h' ⟨[], true, port⟩ rfl rfl
  exact Option.some.inj (hone.symm.trans htwo)

/-- **One call.** The commands of a call keep the invariant, now with the call's target: the
    rule of the call before is deleted, as it prints the port. -/
theorem NodeInv.exec_setTarget (h : NodeInv printed port initial m blocked last)
    (hprinted : ∀ tool target port, Decimal.ofNat port <:+: printed tool target port) {fuel : ℕ}
    (hfuel : ∀ tool, (initial.chain tool).length + 1 < fuel) (target : Target) :
    ∃ m', (setTarget target port).foldlM (exec printed fuel) m = some m' ∧
      NodeInv printed port initial m' (decide (target = .reject)) (some target) := by
  obtain ⟨m', hrun, hchains⟩ := Iptables.exec_setTarget printed target port
    fun tool => (h.length_le tool).trans_lt (hfuel tool)
  refine ⟨m', hrun, by simp, nofun, ?_⟩
  rintro _ ⟨⟩ tool
  refine ⟨_, hchains tool, ?_⟩
  match last with
  | none =>
    rw [h.untouched rfl]
    exact List.dropWhile_suffix _
  | some before =>
    obtain ⟨old, hold, holdrest⟩ := h.ruled before rfl tool
    rw [hold, List.dropWhile_cons_of_pos (prints_of_substring (hprinted tool before port))]
    exact (List.dropWhile_suffix _).trans holdrest

end Calls

/-! ### Sequences of calls -/

section Runs

variable {N : ℕ} {printed : Tool → Target → ℕ → Bytes}

/-- The invariant of all nodes. -/
def Inv (printed : Tool → Target → ℕ → Bytes) (port : Fin N → ℕ) (initial : Fin N → Machine)
    (st : NodesState N) (last : Fin N → Option Target) : Prop :=
  ∀ i, NodeInv printed (port i) (initial i) (st.machine i) (st.blocked i) (last i)

variable {port : Fin N → ℕ} {initial : Fin N → Machine} {st : NodesState N}
  {last : Fin N → Option Target}

/-- The invariant holds of a new object. -/
theorem newNodes_inv : Inv printed port initial (newNodes initial) fun _ => none :=
  fun _ => ⟨rfl, fun _ => rfl, nofun⟩

variable (hprinted : ∀ tool target port, Decimal.ofNat port <:+: printed tool target port)
  {fuel : ℕ} (hfuel : ∀ i tool, ((initial i).chain tool).length + 1 < fuel)

include hprinted hfuel

/-- **Step.** One call ends and keeps the invariant. -/
theorem setNode_inv (h : Inv printed port initial st last) (target : Target) (node : Fin N) :
    ∃ st', setNode printed port fuel target (decide (target = .reject)) node st = some st' ∧
      Inv printed port initial st' (Function.update last node (some target)) := by
  obtain ⟨m, hrun, hnode⟩ := (h node).exec_setTarget hprinted (hfuel node) target
  refine ⟨_, by rw [setNode, hrun]; rfl, fun i => ?_⟩
  by_cases hi : i = node
  · subst hi
    simpa using hnode
  · simpa [hi] using h i

/-- **Run.** A sequence of calls ends and keeps the invariant. -/
theorem runCalls_inv (calls : List (Call N)) (h : Inv printed port initial st last) :
    ∃ st', runCalls printed port fuel calls st = some st' ∧
      Inv printed port initial st' (lastTarget last calls) := by
  induction calls generalizing st last with
  | nil => exact ⟨st, rfl, h⟩
  | cons c calls ih =>
    have hcall : ∃ st', call printed port fuel st c = some st' ∧
        Inv printed port initial st' (Function.update last c.node (some c.target)) := by
      match c with
      | .block i => exact setNode_inv hprinted hfuel h .reject i
      | .unblock i => exact setNode_inv hprinted hfuel h .accept i
    obtain ⟨st₁, hst₁, hinv₁⟩ := hcall
    obtain ⟨st₂, hst₂, hinv₂⟩ := ih hinv₁
    refine ⟨st₂, ?_, hinv₂⟩
    show (call printed port fuel st c).bind (runCalls printed port fuel calls) = some st₂
    rw [hst₁, Option.bind_some, hst₂]

/-- **Destructor.** It ends, and the blocked nodes among those it has come to are unblocked. -/
theorem destroy_inv (nodes : List (Fin N)) (h : Inv printed port initial st last) :
    ∃ st' last', nodes.foldlM
        (fun st i => if st.blocked i then unblockNode printed port fuel i st else some st) st
        = some st' ∧
      Inv printed port initial st' last' ∧
      (∀ i, last' i = last i ∨ last' i = some .accept) ∧
      ∀ i ∈ nodes, last' i ≠ some .reject := by
  induction nodes generalizing st last with
  | nil => exact ⟨st, last, rfl, h, fun _ => .inl rfl, nofun⟩
  | cons node nodes ih =>
    -- the state behind the first node, which is not blocked there
    have hfirst : ∃ st₁ last₁,
        (if st.blocked node then unblockNode printed port fuel node st else some st) = some st₁ ∧
        Inv printed port initial st₁ last₁ ∧
        (∀ i, last₁ i = last i ∨ last₁ i = some .accept) ∧ last₁ node ≠ some .reject := by
      by_cases hblocked : st.blocked node = true
      · obtain ⟨st₁, hst₁, hinv₁⟩ := setNode_inv hprinted hfuel h .accept node
        refine ⟨st₁, _, ?_, hinv₁, fun i => ?_, by simp⟩
        · rw [if_pos hblocked]
          exact hst₁
        · by_cases hi : i = node
          · subst hi
            simp
          · simp [hi]
      · have hflag := (h node).flag
        refine ⟨st, last, if_neg hblocked, h, fun _ => .inl rfl, fun hlast => ?_⟩
        rw [hlast] at hflag
        exact hblocked hflag
    obtain ⟨st₁, last₁, hst₁, hinv₁, hkept₁, hnode⟩ := hfirst
    obtain ⟨st₂, last₂, hst₂, hinv₂, hkept₂, hnodes⟩ := ih hinv₁
    refine ⟨st₂, last₂, ?_, hinv₂, fun i => ?_, fun i hi => ?_⟩
    · rw [List.foldlM_cons, hst₁]
      exact hst₂
    · rcases hkept₂ i with heq | heq
      · rw [heq]
        exact hkept₁ i
      · exact .inr heq
    · rcases List.mem_cons.mp hi with rfl | hi
      · rcases hkept₂ i with heq | heq
        · rw [heq]
          exact hnode
        · rw [heq]
          simp
      · exact hnodes i hi

end Runs

/-! ### The last call decides -/

section LastCall

variable {N : ℕ} {calls : List (Call N)} {node : Fin N} {c : Call N}

/-- The last call on a node is about that node. -/
theorem node_of_lastCall (h : lastCall calls node = some c) : c.node = node := by
  have hmem : c ∈ calls.filter fun c => c.node = node := List.mem_of_getLast? h
  simpa using (List.mem_filter.mp hmem).2

/-- The calls that reject are those of `block_node`. -/
theorem target_eq_reject_iff (h : lastCall calls node = some c) :
    c.target = .reject ↔ c = .block node := by
  have hnode := node_of_lastCall h
  match c with
  | .block i =>
    obtain rfl : i = node := hnode
    simp [Call.target]
  | .unblock i => simp [Call.target]

/-- The target in force on a new object's node is to reject after a last `block_node`. -/
theorem lastTarget_eq_reject_iff (calls : List (Call N)) (node : Fin N) :
    lastTarget (fun _ => none) calls node = some .reject ↔
      lastCall calls node = some (.block node) := by
  rw [lastTarget_apply]
  match hlast : lastCall calls node with
  | none => simp
  | some c =>
    simp only [Option.some.injEq]
    exact target_eq_reject_iff hlast

/-- **The last call decides.** From machines with any chains every sequence of calls ends, no
    loop of `clean_iptables` taking more checks than its chain had rules at the start, and two.
    No chain is then more than one rule longer than at the start, `blocked[i]` tells whether
    the last call on node `i` was `block_node`, and so does what happens to the traffic to its
    port.  The destructor ends too, and after it the traffic to every node that a call was
    about is accepted. -/
theorem block_last_wins (printed : Tool → Target → ℕ → Bytes)
    (hprinted : ∀ tool target port, Decimal.ofNat port <:+: printed tool target port)
    (N : ℕ) (port : Fin N → ℕ) (initial : Fin N → Machine) (fuel : ℕ)
    (hfuel : ∀ i tool, ((initial i).chain tool).length + 2 ≤ fuel) (calls : List (Call N)) :
    ∃ st, runCalls printed port fuel calls (newNodes initial) = some st ∧
      (∀ i tool, ((st.machine i).chain tool).length ≤ ((initial i).chain tool).length + 1) ∧
      (∀ i, st.blocked i = true ↔ lastCall calls i = some (.block i)) ∧
      (∀ i, lastCall calls i ≠ none → ∀ tool,
        Meets .reject ((st.machine i).chain tool) (port i) ↔ lastCall calls i = some (.block i)) ∧
      ∃ st', destroy printed port fuel st = some st' ∧
        ∀ i, lastCall calls i ≠ none → ∀ tool,
          Meets .accept ((st'.machine i).chain tool) (port i) := by
  have hnew : Inv printed port initial (newNodes initial) fun _ => none := newNodes_inv
  obtain ⟨st, hrun, hinv⟩ := runCalls_inv hprinted hfuel calls hnew
  obtain ⟨st', last', hdestroy, hinv', hkept, hunblocked⟩ :=
    destroy_inv hprinted hfuel (List.finRange N) hinv
  refine ⟨st, hrun, fun i tool => (hinv i).length_le tool, fun i => ?_, fun i hcall tool => ?_,
    st', hdestroy, fun i hcall tool => ?_⟩
  · rw [(hinv i).flag, decide_eq_true_iff, lastTarget_eq_reject_iff]
  · obtain ⟨c, hc⟩ := Option.ne_none_iff_exists'.mp hcall
    have hmeets : Meets c.target ((st.machine i).chain tool) (port i) := by
      apply (hinv i).meets
      rw [lastTarget_apply, hc]
    rw [hc, Option.some.injEq, ← target_eq_reject_iff hc]
    refine ⟨fun hreject => hmeets.unique hreject, fun htarget => ?_⟩
    rw [htarget] at hmeets
    exact hmeets
  · obtain ⟨c, hc⟩ := Option.ne_none_iff_exists'.mp hcall
    -- a target other than to reject is to accept
    have haccept : last' i = some .accept := by
      have hnot : last' i ≠ some .reject := hunblocked i (List.mem_finRange i)
      rcases hkept i with heq | heq
      · rw [heq, lastTarget_apply, hc] at hnot ⊢
        match c with
        | .block _ => exact absurd rfl hnot
        | .unblock _ => rfl
      · exact heq
    exact (hinv' i).meets haccept tool

end LastCall

/-- What `-n -L` prints for a rule about a port. -/
def examplePrinted (_ : Tool) (target : Target) (port : ℕ) : Bytes :=
  let (name, options) :=
    match target with
    | .accept => (ascii "ACCEPT", ascii "")
    | .reject => (ascii "REJECT", ascii " reject-with icmp-port-unreachable")
    | .drop => (ascii "DROP", ascii "")
  name ++ ascii " tcp -- 0.0.0.0/0 0.0.0.0/0 tcp dpt:" ++ Decimal.ofNat port ++ options

/-- It shows the port. -/
theorem examplePrinted_port (tool : Tool) (target : Target) (port : ℕ) :
    Decimal.ofNat port <:+: examplePrinted tool target port := ⟨_, _, rfl⟩

/-- A machine that drops the traffic to port 13306 and accepts all other. -/
def exampleMachine : Machine where
  script := []
  executable := false
  chain _ :=
    [ { text := ascii "DROP tcp -- 0.0.0.0/0 0.0.0.0/0 tcp dpt:13306"
        decides := fun p => if p.tcp && p.dport = 13306 then some .drop else none },
      { text := ascii "ACCEPT all -- 0.0.0.0/0 0.0.0.0/0"
        decides := fun _ => some .accept } ]

/-- The first of two nodes blocked twice. -/
theorem block_last_wins_twice :
    ∃ st, runCalls examplePrinted (fun _ => 3306) 4 [.block 0, .unblock 1, .block 0]
        (newNodes (N := 2) fun _ => exampleMachine) = some st ∧
      Meets .reject ((st.machine 0).chain .iptables) 3306 := by
  obtain ⟨st, hrun, -, -, hmeets, -⟩ := block_last_wins examplePrinted examplePrinted_port 2
    (fun _ => 3306) (fun _ => exampleMachine) 4 (fun _ _ => le_refl 4)
    [.block 0, .unblock 1, .block 0]
  exact ⟨st, hrun, (hmeets 0 (by decide) .iptables).mpr (by decide)⟩

end MaxScaleSystemTest.Nodes.Iptables
