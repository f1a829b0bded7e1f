import MaxScaleSystemTest.Maxadmin.ParamBounds
import MaxScaleSystemTest.Nodes.ReadEnv
import MaxScaleSystemTest.Verdict

namespace MaxScaleSystemTest.Rds

open CString Maxadmin Nodes.ReadEnv

/-!
# The comparison of the masters

The Aurora test asks MaxScale for the status of each node and compares it with the role the
node has in the cluster.  Its tests take the result of `strcmp` the wrong way round, and the
status it compares still has the blanks before it.

* `compareLoop_eq_of_blank` — whatever MaxScale reports, no failure is recorded;
* `compareLoop_of_expected` — replies that fit are read without a fault;
* `compare_masters_iff` — the comparison is right exactly when there is nothing to record.
-/

/-! ### The functions -/

/-- The parameter asked for. -/
def statusParam : Bytes := ascii "Status:"

/-- The name of a node, `sprintf(cmd, "node%03d", i)`. -/
def nodeBytes (i : ℕ) : Bytes := ascii "node" ++ paddedDigits i

section

variable (elapsedTime : Bytes → Bytes) (auroraMaster : Bytes)

/-- The comparison of one node, with the string in `maxadmin_status`. -/
def compareNode (i : ℕ) (maxadminStatus : Bytes) (t : TestConnections) : TestConnections :=
  if auroraMaster = nodeBytes i then
    -- `strcmp` is not zero when the strings differ
    if maxadminStatus ≠ ascii "Master, Running" then t
    else report elapsedTime t 1
      (ascii "Server node%03d status is not 'Master, Running'', it is '%s'")
      (ascii "Server " ++ nodeBytes i ++ ascii " status is not 'Master, Running'', it is '" ++
        maxadminStatus ++ ascii "'")
  else
    if maxadminStatus ≠ ascii "Slave, Running" then t
    else report elapsedTime t 1
      (ascii "Server node%03d status is not 'Slave, Running'', it is '%s'")
      (ascii "Server " ++ nodeBytes i ++ ascii " status is not 'Slave, Running'', it is '" ++
        maxadminStatus ++ ascii "'")

/-- The loop of `compare_masters` from node `i` on, over what `show server` prints for each
    (`none` for a NULL pointer from `ssh_maxscale_output`); `none` when a pointer is used
    outside its string. -/
def compareLoop : List (Option Bytes) → (i : ℕ) → (maxadminStatus : Bytes) → TestConnections →
    Option TestConnections
  | [], _, _, t => some t
  | reply :: replies, i, maxadminStatus, t =>
    -- the return value is not looked at
    match getMaxadminParam (reply.map sshMaxscaleOutput) statusParam 1024 maxadminStatus with
    | none => none
    | some (_, maxadminStatus) =>
      compareLoop replies (i + 1) maxadminStatus
        (compareNode elapsedTime auroraMaster i maxadminStatus t)

/-- `compare_masters`; `maxadminStatus` is what its uninitialised buffer holds. -/
def compareMasters (replies : List (Option Bytes)) (maxadminStatus : Bytes)
    (t : TestConnections) : Option TestConnections :=
  compareLoop elapsedTime auroraMaster replies 0 maxadminStatus t

end

/-! ### What is expected -/

/-- The status a node should have. -/
def expectedStatus (auroraMaster : Bytes) (i : ℕ) : Bytes :=
  if auroraMaster = nodeBytes i then ascii "Master, Running" else ascii "Slave, Running"

/-- MaxScale reports a status for a node. -/
def Reports (reply : Option Bytes) (value : Bytes) : Prop :=
  ∃ printed, reply = some printed ∧
    ∃ p : ParamLine statusParam, p.output = sshMaxscaleOutput printed ∧ p.value = value

/-- MaxScale reports it in a line that fits the buffer together with the blanks. -/
def ReportsInRoom (reply : Option Bytes) (value : Bytes) : Prop :=
  ∃ printed, reply = some printed ∧
    ∃ p : ParamLine statusParam, p.output = sshMaxscaleOutput printed ∧ p.value = value ∧
      (p.blanks ++ p.value).length < 1024

/-- `P` holds of the reply for each node from `i` on and the status that is expected. -/
def AllNodes (P : Option Bytes → Bytes → Prop) (auroraMaster : Bytes)
    (replies : List (Option Bytes)) (i : ℕ) : Prop :=
  ∀ j reply, replies[j]? = some reply → P reply (expectedStatus auroraMaster (i + j))

theorem allNodes_cons {P : Option Bytes → Bytes → Prop} {auroraMaster : Bytes}
    {reply : Option Bytes} {replies : List (Option Bytes)} {i : ℕ} :
    AllNodes P auroraMaster (reply :: replies) i ↔
      P reply (expectedStatus auroraMaster i) ∧ AllNodes P auroraMaster replies (i + 1) := by
  unfold AllNodes
  constructor
  · intro h
    refine ⟨h 0 reply rfl, fun j r hj => ?_⟩
    rw [Nat.add_assoc, Nat.add_comm 1 j]
    exact h (j + 1) r hj
  · rintro ⟨hhead, htail⟩ j r hj
    cases j with
    | zero =>
      cases hj
      exact hhead
    | succ j =>
      rw [Nat.add_comm j 1, ← Nat.add_assoc]
      exact htail j r hj

theorem AllNodes.imp {P Q : Option Bytes → Bytes → Prop} {auroraMaster : Bytes}
    {replies : List (Option Bytes)} {i : ℕ} (h : AllNodes P auroraMaster replies i)
    (hPQ : ∀ reply value, P reply value → Q reply value) : AllNodes Q auroraMaster replies i :=
  fun j reply hj => hPQ reply _ (h j reply hj)

/-! ### Nothing is recorded -/

variable {elapsedTime : Bytes → Bytes} {auroraMaster : Bytes}

/-- The string is empty or starts with white space. -/
def StartsBlank (text : Bytes) : Prop := ∀ c ∈ text.head?, isspace c = true

theorem startsBlank_nil : StartsBlank [] := fun _ hc => absurd hc (by simp)

/-- Such a string is no status. -/
theorem compareNode_of_startsBlank {text : Bytes} (h : StartsBlank text) (i : ℕ)
    (t : TestConnections) : compareNode elapsedTime auroraMaster i text t = t := by
  have hmaster : text ≠ ascii "Master, Running" := by
    rintro rfl
    exact absurd (h 77 rfl) (by decide)
  have hslave : text ≠ ascii "Slave, Running" := by
    rintro rfl
    exact absurd (h 83 rfl) (by decide)
  rw [compareNode, if_pos hmaster, if_pos hslave, ite_self]

/-- A reply leaves such a string in the buffer if there was one before. -/
theorem startsBlank_of_getMaxadminParam {printed text text' : Bytes} {rc : ℤ}
    (h : StartsBlank text)
    (hget : getMaxadminParam (some (sshMaxscaleOutput printed)) statusParam 1024 text
      = some (rc, text')) : StartsBlank text' := by
  cases hfound : strstr (sshMaxscaleOutput printed) statusParam with
  | none =>
    rw [(getMaxadminParam_of_not_found hfound 1024 text []).1] at hget
    cases hget
    exact h
  | some found =>
    exact getMaxadminParam_head (zero_not_mem_sshMaxscaleOutput printed) ⟨58, rfl, rfl⟩ hfound
      (by decide) hget

/-- **Nothing is recorded.** Whatever MaxScale reports, the loop leaves the result as it is. -/
theorem compareLoop_eq_of_blank {replies : List (Option Bytes)} {i : ℕ} {text : Bytes}
    {t t' : TestConnections} (h : StartsBlank text)
    (hrun : compareLoop elapsedTime auroraMaster replies i text t = some t') : t' = t := by
  induction replies generalizing i text t with
  | nil => exact (Option.some.inj hrun).symm
  | cons reply replies ih =>
    unfold compareLoop at hrun
    split at hrun
    · cases hrun
    · rename_i rc text' hget
      cases reply with
      | none => cases hget
      | some printed =>
        have htext : StartsBlank text' := startsBlank_of_getMaxadminParam h hget
        rw [compareNode_of_startsBlank htext] at hrun
        exact ih htext hrun

/-! ### Replies as expected -/

/-- A loop that comes to its end has had room for every status. -/
theorem reportsInRoom_of_some {replies : List (Option Bytes)} {i : ℕ} {text : Bytes}
    {t t' : TestConnections}
    (hrun : compareLoop elapsedTime auroraMaster replies i text t = some t')
    (h : AllNodes Reports auroraMaster replies i) :
    AllNodes ReportsInRoom auroraMaster replies i := by
  induction replies generalizing i text t with
  | nil => nofun
  | cons reply replies ih =>
    rw [allNodes_cons] at h ⊢
    obtain ⟨⟨printed, rfl, p, houtput, hvalue⟩, hrest⟩ := h
    unfold compareLoop at hrun
    rw [Option.map_some, ← houtput] at hrun
    have hstring : 0 ∉ p.output := houtput ▸ zero_not_mem_sshMaxscaleOutput printed
    rw [getMaxadminParam_of_text p (p.zero_not_mem_value hstring)] at hrun
    by_cases hroom : (p.blanks ++ p.value).length < 1024
    · rw [if_pos hroom] at hrun
      exact ⟨⟨printed, rfl, p, houtput, hvalue, hroom⟩, ih hrun hrest⟩
    · rw [if_neg hroom] at hrun
      cases hrun

/-- **Replies as expected.** They are read without a fault, whatever the buffer holds, and
    nothing is recorded. -/
theorem compareLoop_of_expected {replies : List (Option Bytes)} {i : ℕ}
    (h : AllNodes ReportsInRoom auroraMaster replies i) (text : Bytes) (t : TestConnections) :
    compareLoop elapsedTime auroraMaster replies i text t = some t := by
  induction replies generalizing i text with
  | nil => rfl
  | cons reply replies ih =>
    obtain ⟨⟨printed, rfl, p, houtput, -, hroom⟩, hrest⟩ := allNodes_cons.mp h
    have hstring : 0 ∉ p.output := houtput ▸ zero_not_mem_sshMaxscaleOutput printed
    -- the first reply overwrites the buffer
    have hget : getMaxadminParam (some p.output) statusParam 1024 text =
        some (0, p.blanks ++ p.value) := by
      rw [getMaxadminParam_of_text p (p.zero_not_mem_value hstring), if_pos hroom]
    have hblank : StartsBlank (p.blanks ++ p.value) :=
      getMaxadminParam_head hstring ⟨58, rfl, rfl⟩ p.strstr_output (by decide) hget
    unfold compareLoop
    rw [Option.map_some, ← houtput, hget]
    show compareLoop elapsedTime auroraMaster replies (i + 1) (p.blanks ++ p.value) _ = some t
    rw [compareNode_of_startsBlank hblank]
    exact ih hrest _

/-! ### Which comparisons are right -/

/-- The comparison comes to its end, and it records a failure if and only if the status of a node
    is not the expected one. -/
def ComparesRight (elapsedTime : Bytes → Bytes) (auroraMaster : Bytes)
    (replies : List (Option Bytes)) (t : TestConnections) (maxadminStatus : Bytes) : Prop :=
  ∃ t', compareMasters elapsedTime auroraMaster replies maxadminStatus t = some t' ∧
    (t'.globalResult ≠ t.globalResult ↔ ¬ AllNodes Reports auroraMaster replies 0)

/-- **Which comparisons are right.** Whatever the buffer holds at the start, the comparison is
    right exactly when the status of every node is the expected one, in a line that fits. -/
theorem compare_masters_iff (elapsedTime : Bytes → Bytes) (auroraMaster : Bytes)
    (replies : List (Option Bytes)) (t : TestConnections) :
    (∀ maxadminStatus, ComparesRight elapsedTime auroraMaster replies t maxadminStatus) ↔
      AllNodes ReportsInRoom auroraMaster replies 0 := by
  constructor
  · intro h
    obtain ⟨t', hrun, hright⟩ := h []
    obtain rfl : t' = t := compareLoop_eq_of_blank startsBlank_nil hrun
    have hexpected : AllNodes Reports auroraMaster replies 0 := by
      by_contra hwrong
      exact hright.mpr hwrong rfl
    exact reportsInRoom_of_some hrun hexpected
  · intro h maxadminStatus
    refine ⟨t, compareLoop_of_expected h maxadminStatus t, ?_⟩
    have hexpected : AllNodes Reports auroraMaster replies 0 := by
      refine h.imp ?_
      rintro reply value ⟨printed, hreply, p, houtput, hvalue, -⟩
      exact ⟨printed, hreply, p, houtput, hvalue⟩
    simp [hexpected]

/-- The status of a server that MaxScale cannot reach. -/
def downReply : Bytes := ascii "\tStatus:                              Down\n"

/-- The writer is down, and the comparison passes. -/
theorem down_writer_passes :
    ¬ ComparesRight (fun _ => []) (ascii "node000") [some downReply] ⟨0, []⟩ [] := by
  rintro ⟨t', hrun, hright⟩
  obtain rfl : t' = ⟨0, []⟩ := compareLoop_eq_of_blank startsBlank_nil hrun
  refine hright.mpr (fun hexpected => ?_) rfl
  obtain ⟨printed, hreply, p, houtput, hvalue⟩ := hexpected 0 _ rfl
  cases hreply
  have hexp : expectedStatus (ascii "node000") 0 = ascii "Master, Running" := by decide +kernel
  -- the reply has no `M` in it
  have hmem : (77 : UInt8) ∈ sshMaxscaleOutput downReply := by
    have hM : (77 : UInt8) ∈ p.value := by
      rw [hvalue, Nat.zero_add, hexp]
      decide
    rw [← houtput]
    simp [ParamLine.output, ParamLine.after, hM]
  exact absurd hmem (by decide +kernel)

end MaxScaleSystemTest.Rds
