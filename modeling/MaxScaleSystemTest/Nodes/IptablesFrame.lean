import MaxScaleSystemTest.Nodes.Iptables

namespace MaxScaleSystemTest.Nodes.Iptables

open CString

/-!
# What a call leaves of the other rules

`clean_iptables` deletes a rule from the head of the chain because the digits of the port occur
in what is printed for it, whatever the rule is about.

* `Rule.Concerns` — that a rule is about a port, read off what it decides;
* `keepsOthers_iff` — a call keeps the rules that are not about the node's port exactly when
  the first rules that print the port are about it.
-/

/-- The rule is for packets to the port: it decides about one that it would leave alone if it
    went to another port. -/
def Rule.Concerns (port : ℕ) (rule : Rule) : Prop :=
  ∃ (p : Packet) (other : ℕ), rule.decides { p with dport := port } ≠ none ∧
    rule.decides { p with dport := other } = none

/-- A rule that looks at the port in one way only, at packets of one kind. -/
theorem concerns_of_dport {rule : Rule} {own : ℕ} {target : Target}
    (hrule : ∀ p, rule.decides p = if p.tcp && p.dport = own then some target else none)
    (port : ℕ) : rule.Concerns port ↔ port = own := by
  unfold Rule.Concerns
  simp only [hrule]
  refine ⟨fun ⟨p, other, hown, _⟩ => ?_, ?_⟩
  · by_contra hne
    simp [hne] at hown
  · rintro rfl
    exact ⟨⟨[], true, port⟩, port + 1, by simp, by simp⟩

section Calls

variable {printed : Tool → Target → ℕ → Bytes}

/-- The rule of a call is about its port. -/
theorem portRule_concerns (tool : Tool) (target : Target) (port : ℕ) :
    (portRule printed tool target port).Concerns port :=
  (concerns_of_dport (fun _ => rfl) port).mpr rfl

open Classical in
/-- The rules that are not about the port, in their order. -/
noncomputable def others (port : ℕ) (chain : List Rule) : List Rule :=
  chain.filter fun rule => ¬ rule.Concerns port

/-- The deleted rules are missed unless they are all about the port. -/
theorem others_dropWhile_iff (port : ℕ) (deleted : Rule → Bool) (chain : List Rule) :
    others port (chain.dropWhile deleted) = others port chain ↔
      ∀ rule ∈ chain.takeWhile deleted, rule.Concerns port := by
  have hsplit : others port chain
      = others port (chain.takeWhile deleted) ++ others port (chain.dropWhile deleted) := by
    rw [others, others, others, ← List.filter_append, List.takeWhile_append_dropWhile]
  rw [hsplit, List.self_eq_append_left, others, List.filter_eq_nil_iff]
  simp

/-- The commands of a call miss no other rule exactly when the first rules that print the port
    are about it. -/
theorem others_setTarget {target : Target} {port : ℕ} {tool : Tool} {before after : List Rule}
    (h : after = portRule printed tool target port ::
      before.dropWhile (prints (Decimal.ofNat port))) :
    others port after = others port before ↔
      ∀ rule ∈ before.takeWhile (prints (Decimal.ofNat port)), rule.Concerns port := by
  have hhead : others port after
      = others port (before.dropWhile (prints (Decimal.ofNat port))) := by
    rw [h, others, List.filter_cons_of_neg (by simpa using portRule_concerns tool target port)]
    rfl
  rw [hhead, others_dropWhile_iff]

end Calls

section Nodes

variable (printed : Tool → Target → ℕ → Bytes) {N : ℕ} (port : Fin N → ℕ)

/-- A call of `block_node` or `unblock_node` ends and leaves, in both chains of its node, the
    rules that are not about the node's port as they are, and every other node alone. -/
def KeepsOthers (st : NodesState N) (c : Call N) : Prop :=
  ∀ fuel, (∀ tool, ((st.machine c.node).chain tool).length < fuel) →
    ∃ st', call printed port fuel st c = some st' ∧
      (∀ tool, others (port c.node) ((st'.machine c.node).chain tool)
        = others (port c.node) ((st.machine c.node).chain tool)) ∧
      ∀ i ≠ c.node, st'.machine i = st.machine i

variable {printed port}

/-- What the two calls are. -/
theorem call_eq_setNode (fuel : ℕ) (st : NodesState N) (c : Call N) :
    call printed port fuel st c
      = setNode printed port fuel c.target (decide (c.target = .reject)) c.node st := by
  cases c with
  | block i => rfl
  | unblock i => rfl

/-- A call ends, and puts its rule in the place of the first rules that print the port. -/
theorem call_spec (printed : Tool → Target → ℕ → Bytes) (port : Fin N → ℕ) {fuel : ℕ}
    {st : NodesState N} (c : Call N)
    (hfuel : ∀ tool, ((st.machine c.node).chain tool).length < fuel) :
    ∃ st', call printed port fuel st c = some st' ∧
      (∀ tool, (st'.machine c.node).chain tool
        = portRule printed tool c.target (port c.node) ::
          ((st.machine c.node).chain tool).dropWhile (prints (Decimal.ofNat (port c.node)))) ∧
      ∀ i ≠ c.node, st'.machine i = st.machine i := by
  obtain ⟨m, hrun, hchains⟩ := exec_setTarget printed c.target (port c.node) hfuel
  refine ⟨_, by rw [call_eq_setNode, setNode, hrun]; rfl, fun tool => ?_, fun i hi => ?_⟩
  · simpa using hchains tool
  · simp [hi]

/-- **The frame of a call.** It leaves the rules that are not about the node's port alone
    exactly when, in both chains, the first rules that show the digits of the port are all
    about it. -/
theorem keepsOthers_iff (printed : Tool → Target → ℕ → Bytes) (N : ℕ) (port : Fin N → ℕ)
    (st : NodesState N) (c : Call N) :
    KeepsOthers printed port st c ↔
      ∀ tool, ∀ rule ∈ ((st.machine c.node).chain tool).takeWhile
        (prints (Decimal.ofNat (port c.node))), rule.Concerns (port c.node) := by
  constructor
  · intro h tool
    obtain ⟨fuel, hfuel⟩ : ∃ fuel, ∀ tool, ((st.machine c.node).chain tool).length < fuel := by
      refine ⟨((st.machine c.node).chain .iptables).length
        + ((st.machine c.node).chain .ip6tables).length + 1, fun tool => ?_⟩
      cases tool with
      | iptables => omega
      | ip6tables => omega
    obtain ⟨st', hcall, hkept, -⟩ := h fuel hfuel
    obtain ⟨st₁, hcall₁, hchains, -⟩ := call_spec printed port c hfuel
    obtain rfl : st' = st₁ := Option.some.inj (hcall.symm.trans hcall₁)
    exact (others_setTarget (hchains tool)).mp (hkept tool)
  · intro h fuel hfuel
    obtain ⟨st', hcall, hchains, hframe⟩ := call_spec printed port c hfuel
    exact ⟨st', hcall, fun tool => (others_setTarget (hchains tool)).mpr (h tool), hframe⟩

end Nodes

/-- The digits of 3306 are found in what is printed for port 13306. -/
theorem longer_port_infix :
    Decimal.ofNat 3306 <:+: ascii "DROP tcp -- 0.0.0.0/0 0.0.0.0/0 tcp dpt:13306" :=
  ⟨ascii "DROP tcp -- 0.0.0.0/0 0.0.0.0/0 tcp dpt:1", [], by decide +kernel⟩

/-- The rule for port 13306 does not survive that port 3306 is blocked. -/
theorem rule_of_longer_port_deleted :
    ¬ KeepsOthers examplePrinted (fun _ : Fin 1 => 3306) (newNodes fun _ => exampleMachine)
      (.block 0) := by
  rw [keepsOthers_iff]
  intro h
  have hrule := h .iptables
  simp only [newNodes, exampleMachine, Call.node] at hrule
  rw [List.takeWhile_cons_of_pos (prints_of_substring longer_port_infix)] at hrule
  have hport := (concerns_of_dport (fun _ => rfl) 3306).mp (hrule _ List.mem_cons_self)
  exact absurd hport (by decide)

end MaxScaleSystemTest.Nodes.Iptables
