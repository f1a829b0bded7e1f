import MaxScaleSystemTest.Lib.Handles

namespace MaxScaleSystemTest.Maxscale.CreateConnections

open Handles

/-!
# Many connections at once

`create_connections` opens some connections to each of up to four services, executes a query on
each of them and closes them.  The connection to the read-write-split router is compared with NULL,
the others are asked for their error.

* `openBody`, `queryBody`, `closeBody` — the bodies of the three loops;
* `createConnections` — the function;
* `create_connections_closes` — every connection is closed, whatever has failed, and what the
  result counts.
-/

/-- The services. -/
inductive Service where
  | rwsplit
  | master
  | slave
  | galera
  deriving DecidableEq

/-- An element of one of the four arrays. -/
structure Slot where
  service : Service
  i : ℕ
  deriving DecidableEq

/-- What is answered: whether `mysql_init` has memory, whether the connection has an error, and
    what `execute_query` returns for it. -/
structure Answers where
  init : Slot → Bool
  errno : Slot → Bool
  query : Slot → Bool

/-- The arguments, without those that only change what is printed. -/
structure Flags where
  rwsplitFlag : Bool
  masterFlag : Bool
  slaveFlag : Bool
  galeraFlag : Bool

/-- The flag of a service. -/
def Flags.of (f : Flags) : Service → Bool
  | .rwsplit => f.rwsplitFlag
  | .master => f.masterFlag
  | .slave => f.slaveFlag
  | .galera => f.galeraFlag

/-- The elements that a loop comes to, in its order. -/
def rounds (connN : ℕ) (f : Flags) : List Slot :=
  (List.range connN).flatMap fun i =>
    ([Service.rwsplit, .master, .slave, .galera].filter f.of).map fun service => ⟨service, i⟩

/-- The connections, and `local_result`. -/
structure State where
  slots : Slots Slot
  localResult : ℕ

/-- `local_result++`, if something has failed. -/
def State.count (s : State) (failed : Bool) : State :=
  { s with localResult := s.localResult + failed.toNat }

/-- The body of the first loop. -/
def openBody (a : Answers) (s : State) (slot : Slot) : State :=
  let slots := s.slots.openAt slot (a.init slot)
  match slot.service with
  | .rwsplit => State.count { s with slots := slots } (slots.slot slot).isNone
  | _ => State.count { s with slots := slots.useAt slot } (a.errno slot)

/-- `execute_query`, which returns 1 for a null pointer. -/
def queryFails (a : Answers) (slots : Slots Slot) (slot : Slot) : Bool :=
  (slots.slot slot).isNone || a.query slot

/-- The body of the second loop. -/
def queryBody (a : Answers) (s : State) (slot : Slot) : State :=
  State.count { s with slots := s.slots.useAt slot } (queryFails a s.slots slot)

/-- The body of the third loop. -/
def closeBody (s : State) (slot : Slot) : State := { s with slots := s.slots.closeAt slot }

/-- `create_connections`. -/
def createConnections (connN : ℕ) (f : Flags) (a : Answers) : State :=
  let opened := (rounds connN f).foldl (openBody a) ⟨Slots.empty Slot, 0⟩
  let queried := (rounds connN f).foldl (queryBody a) opened
  (rounds connN f).foldl closeBody queried

/-! ### The loops -/

theorem nodup_rounds (connN : ℕ) (f : Flags) : (rounds connN f).Nodup := by
  refine List.nodup_flatMap.mpr ⟨fun i _ => ?_, ?_⟩
  · refine List.Nodup.map (fun x y h => (Slot.mk.inj h).1) (List.Nodup.filter _ (by decide))
  · refine List.Nodup.pairwise_of_forall_ne (List.nodup_range) fun i _ j _ hij => ?_
    intro slot hi hj
    obtain ⟨x, -, rfl⟩ := List.mem_map.mp hi
    obtain ⟨y, -, hy⟩ := List.mem_map.mp hj
    exact hij (Slot.mk.inj hy).2.symm

/-- What the first loop counts: a null pointer for the read-write-split router, an error for the
    others. -/
def opensBadly (a : Answers) (slot : Slot) : Bool :=
  match slot.service with
  | .rwsplit => !a.init slot
  | _ => a.errno slot

theorem openBody_slot (a : Answers) (s : State) (slot : Slot) :
    (openBody a s slot).slots.slot = (s.slots.openAt slot (a.init slot)).slot := by
  unfold openBody
  cases slot.service <;> first | rfl | exact Slots.useAt_slot _ _

theorem openBody_localResult (a : Answers) (s : State) (slot : Slot) :
    (openBody a s slot).localResult = s.localResult + (opensBadly a slot).toNat := by
  have hnull : ((s.slots.openAt slot (a.init slot)).slot slot).isNone = !a.init slot := by
    rw [Slots.openAt_slot, Function.update_self]
    cases a.init slot <;> rfl
  unfold openBody opensBadly
  cases slot.service with
  | rwsplit => exact congrArg (fun b : Bool => s.localResult + b.toNat) hnull
  | master => rfl
  | slave => rfl
  | galera => rfl

theorem openBody_accounts {a : Answers} {s : State} {slot : Slot} (h : Accounts s.slots ∅)
    (hnull : s.slots.slot slot = none) : Accounts (openBody a s slot).slots ∅ := by
  have hopen := h.openAt_of_null hnull (a.init slot)
  unfold openBody
  cases slot.service with
  | rwsplit => exact hopen
  | master => exact hopen.useAt slot
  | slave => exact hopen.useAt slot
  | galera => exact hopen.useAt slot

/-- **The first loop.** -/
theorem open_loop (a : Answers) {l : List Slot} (hl : l.Nodup) {s : State}
    (h : Accounts s.slots ∅) (hnull : ∀ slot ∈ l, s.slots.slot slot = none) :
    Accounts (l.foldl (openBody a) s).slots ∅ ∧
      (∀ slot ∉ l, (l.foldl (openBody a) s).slots.slot slot = s.slots.slot slot) ∧
      (∀ slot ∈ l, ((l.foldl (openBody a) s).slots.slot slot).isNone = !a.init slot) ∧
      (l.foldl (openBody a) s).localResult = s.localResult + l.countP (opensBadly a) := by
  induction l generalizing s with
  | nil => exact ⟨h, fun _ _ => rfl, nofun, rfl⟩
  | cons first l ih =>
    obtain ⟨hfirst, hl⟩ := List.nodup_cons.mp hl
    rw [List.forall_mem_cons] at hnull
    have hother : ∀ slot ≠ first, (openBody a s first).slots.slot slot = s.slots.slot slot := by
      intro slot hne
      rw [openBody_slot, Slots.openAt_slot, Function.update_of_ne hne]
    have hnext : ∀ slot ∈ l, (openBody a s first).slots.slot slot = none := by
      intro slot hslot
      rw [hother slot fun heq => hfirst (heq ▸ hslot)]
      exact hnull.2 slot hslot
    obtain ⟨haccounts, hsame, hopened, hcount⟩ := ih hl (openBody_accounts h hnull.1) hnext
    refine ⟨haccounts, fun slot hslot => ?_, fun slot hslot => ?_, ?_⟩
    · rw [List.mem_cons, not_or] at hslot
      exact (hsame slot hslot.2).trans (hother slot hslot.1)
    · rcases List.mem_cons.mp hslot with rfl | hslot
      · rw [List.foldl_cons, hsame slot hfirst, openBody_slot, Slots.openAt_slot,
          Function.update_self]
        cases a.init slot <;> rfl
      · exact hopened slot hslot
    · rw [List.foldl_cons, hcount, openBody_localResult, List.countP_cons]
      cases opensBadly a first
      · simp
      · simp only [Bool.toNat_true, if_true]
        omega

/-- **The second loop.** -/
theorem query_loop (a : Answers) (l : List Slot) {s : State} (h : Accounts s.slots ∅) :
    Accounts (l.foldl (queryBody a) s).slots ∅ ∧
      (l.foldl (queryBody a) s).slots.slot = s.slots.slot ∧
      (l.foldl (queryBody a) s).localResult =
        s.localResult + l.countP (queryFails a s.slots) := by
  induction l generalizing s with
  | nil => exact ⟨h, rfl, rfl⟩
  | cons first l ih =>
    have hslot : (queryBody a s first).slots.slot = s.slots.slot := Slots.useAt_slot _ _
    have hfails : queryFails a (queryBody a s first).slots = queryFails a s.slots := by
      funext slot
      rw [queryFails, hslot, queryFails]
    have hnext : Accounts (queryBody a s first).slots ∅ := h.useAt first
    obtain ⟨haccounts, hsame, hcount⟩ := ih hnext
    refine ⟨haccounts, hsame.trans hslot, ?_⟩
    rw [List.foldl_cons, hcount, hfails, List.countP_cons]
    show s.localResult + (queryFails a s.slots first).toNat + _ = _
    cases queryFails a s.slots first
    · simp
    · simp only [Bool.toNat_true, if_true]
      omega

/-- **The third loop.** -/
theorem close_loop (l : List Slot) {s : State} (h : Accounts s.slots ∅) :
    Accounts (l.foldl closeBody s).slots ∅ ∧
      (∀ slot, slot ∈ l ∨ s.slots.slot slot = none →
        (l.foldl closeBody s).slots.slot slot = none) ∧
      (l.foldl closeBody s).localResult = s.localResult := by
  induction l generalizing s with
  | nil => exact ⟨h, fun slot hslot => hslot.resolve_left List.not_mem_nil, rfl⟩
  | cons first l ih =>
    have hnext : Accounts (closeBody s first).slots ∅ := h.closeAt first
    obtain ⟨haccounts, hclosed, hresult⟩ := ih hnext
    refine ⟨haccounts, fun slot hslot => hclosed slot ?_, hresult⟩
    rw [List.mem_cons, or_assoc] at hslot
    by_cases heq : slot = first
    · refine .inr ?_
      show (s.slots.closeAt first).slot slot = none
      rw [Slots.closeAt_slot, heq, Function.update_self]
    · refine (hslot.resolve_left heq).imp_right fun hnull => ?_
      show (s.slots.closeAt first).slot slot = none
      rw [Slots.closeAt_slot, Function.update_of_ne heq, hnull]

/-- **Every connection is closed.** Whatever flags are set and whatever fails, each connection
    that `create_connections` opens has been closed once when it returns and was open when it was
    used, and the result is the number of connections that it has found bad and of queries that
    have failed. -/
theorem create_connections_closes (connN : ℕ) (f : Flags) (a : Answers) :
    Handles.after (createConnections connN f a).slots.trace = some ∅ ∧
      (createConnections connN f a).localResult =
        (rounds connN f).countP (opensBadly a) +
          (rounds connN f).countP fun slot => !a.init slot || a.query slot := by
  have hstart : Accounts (State.mk (Slots.empty Slot) 0).slots ∅ := accounts_empty
  obtain ⟨hopened, houtside, hinit, hcount⟩ :=
    open_loop a (nodup_rounds connN f) hstart fun _ _ => rfl
  obtain ⟨hqueried, hsame, hcount'⟩ := query_loop a (rounds connN f) hopened
  obtain ⟨hclosed, hnull, hresult⟩ := close_loop (rounds connN f) hqueried
  constructor
  · refine hclosed.empty fun slot => hnull slot ?_
    by_cases hslot : slot ∈ rounds connN f
    · exact .inl hslot
    · exact .inr ((congrFun hsame slot).trans (houtside slot hslot))
  · have hfails : (rounds connN f).countP
        (queryFails a ((rounds connN f).foldl (openBody a) ⟨Slots.empty Slot, 0⟩).slots) =
        (rounds connN f).countP fun slot => !a.init slot || a.query slot := by
      refine List.countP_congr fun slot hslot => ?_
      rw [queryFails, hinit slot hslot]
    rw [createConnections, hresult, hcount', hcount, hfails, Nat.zero_add]

end MaxScaleSystemTest.Maxscale.CreateConnections
