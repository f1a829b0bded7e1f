import MaxScaleSystemTest.Rds.Cluster

namespace MaxScaleSystemTest.Rds.GetWriter

open CString Json Cluster

/-!
# The writer of a cluster

`get_writer` looks at one member after the other until it finds the one that is flagged as the
writer.  Nothing else ends its loop: behind the last member `json_array_get` gives NULL, which
is no writer either.

* `writerLoop_of_first`, `writerLoop_of_none` — the loop finds the first writer, or goes on for
  ever;
* `get_writer_ends_iff` — which descriptions `get_writer` and the waiting loop of `do_failover`
  come to an end on.
-/

/-! ### The functions -/

section

variable (jsonLoads : Bytes → Option Value)

/-- The flag of a member, or of NULL. -/
def isClusterWriter (node : Option Value) : Bool :=
  isTrue (objectGet node (ascii "IsClusterWriter"))

/-- The loop of `get_writer`, which leaves `node` and `i`; `none` when it is not over after
    `fuel` turns.  An index that has wrapped around would find the same members again. -/
def writerLoop (nodes : Option Value) : (fuel i : ℕ) → Option (Option Value × ℕ)
  | 0, _ => none
  | fuel + 1, i =>
    let node := arrayGet nodes i
    let writer := isClusterWriter node
    let i := i + 1
    if !writer then writerLoop nodes fuel i else some (node, i)

/-- The status and `*writer_name`, with the number of members that have been looked at. -/
structure WriterResult where
  rc : ℤ
  writerName : Option Bytes
  looked : ℕ

/-- `get_writer`, on what `aws rds describe-db-clusters` gives; `none` while the loop goes on,
    and for the use of a text that is not set.  The status of the command is not looked at. -/
def getWriter (fuel : ℕ) (reply : Reply) : Option WriterResult := do
  let cluster ← getCluster jsonLoads reply
  let nodes := objectGet cluster (ascii "DBClusterMembers")
  let (node, i) ← writerLoop nodes fuel 0
  return ⟨0, stringValue (objectGet node (ascii "DBInstanceIdentifier")), i⟩

/-- Where `do_failover` stands: it has returned, it waits for the next description, or it comes
    no further, as `get_writer` does not end or a name to be compared is NULL. -/
inductive FailoverRun where
  | returned (rc : ℤ)
  | waiting
  | stuck
  deriving DecidableEq

/-- The waiting loop of `do_failover`, over what the cluster is polled for. -/
def waitForFailover (fuel : ℕ) (writer : Option Bytes) : List Reply → FailoverRun
  | [] => .waiting
  | poll :: polls =>
    match getWriter jsonLoads fuel poll with
    | none => .stuck
    | some r =>
      if r.rc ≠ 0 then .returned (-1)
      else match writer, r.writerName with
        | some writer', some newWriter =>
          if writer' = newWriter then waitForFailover fuel writer polls else .returned 0
        -- `strcmp` is called with NULL
        | _, _ => .stuck

/-- `do_failover`: the description before, what `aws rds failover-db-cluster` gives, and the
    descriptions behind. -/
def doFailover (fuel : ℕ) (before failover : Reply) (polls : List Reply) : FailoverRun :=
  match getWriter jsonLoads fuel before with
  | none => .stuck
  | some r =>
    if r.rc ≠ 0 then .returned (-1)
    else if failover.status ≠ 0 then .returned (-1)
    else waitForFailover jsonLoads fuel r.writerName polls

/-! ### What they should do -/

/-- The members that a command describes.  A command that has failed describes none. -/
def described : Reply → List Value
  | .printed text 0 => members (getClusterDescr jsonLoads text)
  | _ => []

/-- `get_writer` ends after one pass over the members at most, with the identifier of a member
    that is flagged if there is one, and with an error otherwise. -/
def WriterRight (reply : Reply) : Prop :=
  ∃ fuel r, getWriter jsonLoads fuel reply = some r ∧
    r.looked ≤ (described jsonLoads reply).length ∧
      if ∃ member ∈ described jsonLoads reply, isClusterWriter (some member) = true then
        r.rc = 0 ∧ ∃ member ∈ described jsonLoads reply, isClusterWriter (some member) = true ∧
          ∃ name, getInstanceName (some member) = some name ∧ r.writerName = some name
      else r.rc ≠ 0

/-- `do_failover` and every turn of its loop end. -/
def FailoverEnds (before failover : Reply) (polls : List Reply) : Prop :=
  ∃ fuel, doFailover jsonLoads fuel before failover polls ≠ .stuck

/-! ### When they do it -/

/-- The first member that is flagged in what a command prints. -/
def firstWriter : Reply → Option Value
  | .noPipe => none
  | .printed text _ =>
    (members (getClusterDescr jsonLoads text)).find? fun member => isClusterWriter (some member)

/-- A command succeeds and describes a writer; the first one has a name. -/
def NamesWriter (reply : Reply) : Prop :=
  reply.status = 0 ∧ ∃ member, firstWriter jsonLoads reply = some member ∧
    (getInstanceName (some member)).isSome

/-- Each poll describes a writer, up to the first one that is not `writer`. -/
def PollsName (writer : Option Bytes) : List Reply → Prop
  | [] => True
  | poll :: polls => ∃ writer' member newWriter, writer = some writer' ∧
      firstWriter jsonLoads poll = some member ∧ getInstanceName (some member) = some newWriter ∧
        (writer' = newWriter → PollsName writer polls)

end

/-! ### The loop -/

/-- **A writer.** The loop stops at the first one. -/
theorem writerLoop_of_first {nodes : Option Value} {front rest : List Value} {node : Value}
    {i fuel : ℕ} (hsplit : (elements nodes).drop i = front ++ node :: rest)
    (hfront : ∀ member ∈ front, isClusterWriter (some member) = false)
    (hnode : isClusterWriter (some node) = true) (hfuel : front.length < fuel) :
    writerLoop nodes fuel i = some (some node, i + front.length + 1) := by
  induction front generalizing i fuel with
  | nil =>
    obtain ⟨fuel, rfl⟩ := Nat.exists_eq_add_one_of_ne_zero (Nat.ne_of_gt hfuel)
    have hget : arrayGet nodes i = some node := by
      rw [arrayGet_eq, ← List.head?_drop, hsplit]
      rfl
    rw [writerLoop, hget, hnode]
    rfl
  | cons member front ih =>
    obtain ⟨fuel, rfl⟩ := Nat.exists_eq_add_one_of_ne_zero (Nat.ne_of_gt (Nat.zero_lt_of_lt hfuel))
    have hget : arrayGet nodes i = some member := by
      rw [arrayGet_eq, ← List.head?_drop, hsplit]
      rfl
    have hnext : (elements nodes).drop (i + 1) = front ++ node :: rest := by
      rw [← List.drop_drop, hsplit]
      rfl
    have hrest := ih hnext (fun m hm => hfront m (List.mem_cons_of_mem member hm))
      (Nat.lt_of_succ_lt_succ hfuel)
    rw [writerLoop, hget, hfront member List.mem_cons_self]
    show writerLoop nodes fuel (i + 1) = _
    rw [hrest, List.length_cons]
    congr 2
    omega

/-- **No writer.** The loop goes on for ever. -/
theorem writerLoop_of_none {nodes : Option Value}
    (h : ∀ member ∈ elements nodes, isClusterWriter (some member) = false) (fuel i : ℕ) :
    writerLoop nodes fuel i = none := by
  induction fuel generalizing i with
  | zero => rfl
  | succ fuel ih =>
    have hnode : isClusterWriter (arrayGet nodes i) = false := by
      rw [arrayGet_eq]
      cases hget : (elements nodes)[i]? with
      | none => rfl
      | some member => exact h member (List.mem_of_getElem? hget)
    rw [writerLoop, hnode]
    exact ih (i + 1)

/-- More turns change nothing once the loop is over. -/
theorem writerLoop_mono {nodes : Option Value} {fuel fuel' i : ℕ} {r : Option Value × ℕ}
    (h : writerLoop nodes fuel i = some r) (hle : fuel ≤ fuel') :
    writerLoop nodes fuel' i = some r := by
  induction fuel generalizing i fuel' with
  | zero => cases h
  | succ fuel ih =>
    obtain ⟨fuel', rfl⟩ := Nat.exists_eq_add_one_of_ne_zero (Nat.ne_of_gt (Nat.zero_lt_of_lt hle))
    rw [writerLoop] at h ⊢
    cases hflag : isClusterWriter (arrayGet nodes i) with
    | true =>
      rw [hflag] at h
      exact h
    | false =>
      rw [hflag] at h
      exact ih h (Nat.le_of_succ_le_succ hle)

section

variable {jsonLoads : Bytes → Option Value}

/-- `get_writer` on a description with a writer, with enough turns. -/
theorem getWriter_of_some {text : Bytes} {status : ℤ} {member : Value}
    (h : firstWriter jsonLoads (.printed text status) = some member) :
    ∃ looked, looked ≤ (members (getClusterDescr jsonLoads text)).length ∧
      ∀ fuel, (members (getClusterDescr jsonLoads text)).length ≤ fuel →
        getWriter jsonLoads fuel (.printed text status)
          = some ⟨0, getInstanceName (some member), looked⟩ := by
  obtain ⟨hmember, front, rest, hsplit, hfront⟩ := List.find?_eq_some_iff_append.mp h
  have hlength := congrArg List.length hsplit
  rw [List.length_append, List.length_cons] at hlength
  refine ⟨0 + front.length + 1, by omega, fun fuel hfuel => ?_⟩
  have hunflagged : ∀ m ∈ front, isClusterWriter (some m) = false := by
    simpa using hfront
  have hturns : front.length < fuel := by omega
  have hloop := writerLoop_of_first (i := 0) hsplit hunflagged hmember hturns
  show (writerLoop _ fuel 0).bind _ = _
  rw [hloop]
  rfl

/-- Without a writer `get_writer` does not end. -/
theorem getWriter_of_none {reply : Reply} (h : firstWriter jsonLoads reply = none) (fuel : ℕ) :
    getWriter jsonLoads fuel reply = none := by
  cases reply with
  | noPipe => rfl
  | printed text status =>
    have hnone : ∀ member ∈ members (getClusterDescr jsonLoads text),
        isClusterWriter (some member) = false := by
      simpa using List.find?_eq_none.mp h
    show (writerLoop _ fuel 0).bind _ = _
    rw [writerLoop_of_none hnone]
    rfl

/-- A description with a writer is not an unset text. -/
theorem exists_printed {reply : Reply} {member : Value}
    (h : firstWriter jsonLoads reply = some member) :
    ∃ text status, reply = .printed text status := by
  cases reply with
  | noPipe => cases h
  | printed text status => exact ⟨text, status, rfl⟩

/-- With enough turns `get_writer` ends on a description with a writer. -/
theorem getWriter_eventually {reply : Reply} {member : Value}
    (h : firstWriter jsonLoads reply = some member) :
    ∃ looked turns, ∀ fuel, turns ≤ fuel →
      getWriter jsonLoads fuel reply = some ⟨0, getInstanceName (some member), looked⟩ := by
  obtain ⟨text, status, rfl⟩ := exists_printed h
  obtain ⟨looked, -, hrun⟩ := getWriter_of_some h
  exact ⟨looked, _, hrun⟩

/-- What `get_writer` ends with is the name of the first writer. -/
theorem getWriter_eq_some {fuel : ℕ} {reply : Reply} {r : WriterResult}
    (h : getWriter jsonLoads fuel reply = some r) :
    r.rc = 0 ∧ ∃ member, firstWriter jsonLoads reply = some member ∧
      r.writerName = getInstanceName (some member) := by
  cases hfirst : firstWriter jsonLoads reply with
  | none =>
    rw [getWriter_of_none hfirst] at h
    cases h
  | some member =>
    obtain ⟨text, status, rfl⟩ := exists_printed hfirst
    obtain ⟨looked, turns, hrun⟩ := getWriter_eventually hfirst
    -- the loop has not taken more turns than it needs
    have hmore : getWriter jsonLoads (max fuel turns) (.printed text status) = some r := by
      obtain ⟨⟨node, i⟩, hloop, hresult⟩ := Option.bind_eq_some_iff.mp h
      exact Option.bind_eq_some_iff.mpr
        ⟨(node, i), writerLoop_mono hloop (Nat.le_max_left fuel turns), hresult⟩
    rw [hrun _ (Nat.le_max_right fuel turns)] at hmore
    cases hmore
    exact ⟨rfl, member, rfl, rfl⟩

/-! ### `get_writer` -/

/-- Only a command that has succeeded describes members. -/
theorem status_of_described {reply : Reply} {member : Value}
    (hmem : member ∈ described jsonLoads reply) : reply.status = 0 := by
  unfold described at hmem
  split at hmem
  · rfl
  · cases hmem

theorem writerRight_iff (reply : Reply) :
    WriterRight jsonLoads reply ↔ NamesWriter jsonLoads reply := by
  constructor
  · rintro ⟨fuel, r, hrun, -, hright⟩
    obtain ⟨hrc, member, hfirst, hname⟩ := getWriter_eq_some hrun
    split at hright
    · rename_i hflagged
      obtain ⟨m, hm, -⟩ := hflagged
      obtain ⟨-, -, -, -, name, -, hname'⟩ := hright
      refine ⟨status_of_described hm, member, hfirst, ?_⟩
      rw [← hname, hname']
      rfl
    · exact absurd hrc hright
  · rintro ⟨hstatus, member, hfirst, hname⟩
    obtain ⟨text, status, rfl⟩ := exists_printed hfirst
    obtain rfl : status = 0 := hstatus
    obtain ⟨name, hname⟩ := Option.isSome_iff_exists.mp hname
    obtain ⟨looked, hlooked, hrun⟩ := getWriter_of_some hfirst
    have hmem : member ∈ described jsonLoads (.printed text 0) := List.mem_of_find?_eq_some hfirst
    have hflag : isClusterWriter (some member) = true := by
      simpa using List.find?_some hfirst
    refine ⟨_, _, hrun _ (le_refl _), hlooked, ?_⟩
    rw [if_pos ⟨member, hmem, hflag⟩]
    exact ⟨rfl, member, hmem, hflag, name, hname, hname⟩

/-! ### `do_failover` -/

/-- Where the polls name their writers the waiting loop is not stuck, with enough turns. -/
theorem waitForFailover_of_pollsName {writer : Option Bytes} {polls : List Reply}
    (h : PollsName jsonLoads writer polls) :
    ∃ turns, ∀ fuel, turns ≤ fuel → waitForFailover jsonLoads fuel writer polls ≠ .stuck := by
  induction polls with
  | nil => exact ⟨0, fun _ _ => nofun⟩
  | cons poll polls ih =>
    obtain ⟨writer', member, newWriter, rfl, hfirst, hname, hrest⟩ := h
    obtain ⟨looked, turns, hrun⟩ := getWriter_eventually hfirst
    by_cases hsame : writer' = newWriter
    · obtain ⟨turns', hwait⟩ := ih (hrest hsame)
      refine ⟨max turns turns', fun fuel hfuel => ?_⟩
      rw [waitForFailover, hrun fuel (le_trans (Nat.le_max_left _ _) hfuel), hname]
      simp only [ne_eq, not_true_eq_false, if_false, if_pos hsame]
      exact hwait fuel (le_trans (Nat.le_max_right _ _) hfuel)
    · refine ⟨turns, fun fuel hfuel => ?_⟩
      rw [waitForFailover, hrun fuel hfuel, hname]
      simp only [ne_eq, not_true_eq_false, if_false, if_neg hsame]
      exact nofun

/-- Where it is not stuck the polls name their writers. -/
theorem pollsName_of_waitForFailover {fuel : ℕ} {writer : Option Bytes} {polls : List Reply}
    (h : waitForFailover jsonLoads fuel writer polls ≠ .stuck) :
    PollsName jsonLoads writer polls := by
  induction polls with
  | nil => trivial
  | cons poll polls ih =>
    rw [waitForFailover] at h
    cases hrun : getWriter jsonLoads fuel poll with
    | none => simp [hrun] at h
    | some r =>
      obtain ⟨hrc, member, hfirst, hname⟩ := getWriter_eq_some hrun
      simp only [hrun, hrc, ne_eq, not_true_eq_false, if_false] at h
      cases hwriter : writer with
      | none => simp [hwriter] at h
      | some writer' =>
        cases hnew : r.writerName with
        | none => simp [hwriter, hnew] at h
        | some newWriter =>
          simp only [hwriter, hnew] at h
          refine ⟨writer', member, newWriter, rfl, hfirst, hname.symm.trans hnew, fun hsame => ?_⟩
          rw [if_pos hsame, ← hwriter] at h
          exact hwriter ▸ ih h

theorem failoverEnds_iff (before failover : Reply) (polls : List Reply) :
    FailoverEnds jsonLoads before failover polls ↔
      ∃ member, firstWriter jsonLoads before = some member ∧
        (failover.status = 0 → PollsName jsonLoads (getInstanceName (some member)) polls) := by
  constructor
  · rintro ⟨fuel, h⟩
    rw [doFailover] at h
    cases hrun : getWriter jsonLoads fuel before with
    | none => simp [hrun] at h
    | some r =>
      obtain ⟨hrc, member, hfirst, hname⟩ := getWriter_eq_some hrun
      refine ⟨member, hfirst, fun hstatus => ?_⟩
      simp only [hrun, hrc, hstatus, ne_eq, not_true_eq_false, if_false, hname] at h
      exact pollsName_of_waitForFailover h
  · rintro ⟨member, hfirst, hpolls⟩
    obtain ⟨looked, turns, hrun⟩ := getWriter_eventually hfirst
    by_cases hstatus : failover.status = 0
    · obtain ⟨turns', hwait⟩ := waitForFailover_of_pollsName (hpolls hstatus)
      refine ⟨max turns turns', ?_⟩
      rw [doFailover, hrun _ (Nat.le_max_left _ _)]
      simp only [hstatus, ne_eq, not_true_eq_false, if_false]
      exact hwait _ (Nat.le_max_right _ _)
    · refine ⟨turns, ?_⟩
      rw [doFailover, hrun _ (le_refl _)]
      simp [hstatus]

end

/-- **The writer.** `get_writer` ends rightly exactly on the descriptions whose first writer has a
    name, of commands that succeed; and `do_failover` and the turns of its loop end exactly when
    there is a writer before the failover, and every poll names one until it is another. -/
theorem get_writer_ends_iff (jsonLoads : Bytes → Option Value) :
    (∀ reply, WriterRight jsonLoads reply ↔ NamesWriter jsonLoads reply) ∧
      ∀ before failover polls, FailoverEnds jsonLoads before failover polls ↔
        ∃ member, firstWriter jsonLoads before = some member ∧
          (failover.status = 0 → PollsName jsonLoads (getInstanceName (some member)) polls) :=
  ⟨writerRight_iff, failoverEnds_iff⟩

/-- A member that is not flagged. -/
def reader (name : Bytes) : Value :=
  .object [(ascii "DBInstanceIdentifier", .string name), (ascii "IsClusterWriter", .constant .jsonFalse)]

/-- What is printed in the middle of a failover, when no member of two is the writer. -/
def noWriterText : Bytes :=
  ascii "\x7b\"DBClusters\": [\x7b\"DBClusterMembers\": [" ++
    ascii "\x7b\"DBInstanceIdentifier\": \"node000\", \"IsClusterWriter\": false\x7d, " ++
    ascii "\x7b\"DBInstanceIdentifier\": \"node001\", \"IsClusterWriter\": false\x7d]\x7d]\x7d"

/-- `json_loads` on that text. -/
def noWriterLoads (text : Bytes) : Option Value :=
  if text = noWriterText then
    some (.object [(ascii "DBClusters", .array [.object [(ascii "DBClusterMembers",
      .array [reader (ascii "node000"), reader (ascii "node001")])]])])
  else none

/-- `get_writer` does not end on it. -/
theorem no_writer_never_ends : ¬ WriterRight noWriterLoads (.printed noWriterText 0) := by
  rintro ⟨fuel, r, hrun, -⟩
  have hfirst : firstWriter noWriterLoads (.printed noWriterText 0) = none := by
    rw [firstWriter, getClusterDescr, noWriterLoads, if_pos rfl]
    rfl
  rw [getWriter_of_none hfirst] at hrun
  cases hrun

end MaxScaleSystemTest.Rds.GetWriter
