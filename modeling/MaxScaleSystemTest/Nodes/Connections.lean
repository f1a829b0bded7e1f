import MaxScaleSystemTest.Lib.Handles

namespace MaxScaleSystemTest.Nodes.Connections

open Handles Runs

/-!
# The connections in `nodes[]`

The methods of `Mariadb_nodes` and `Galera_nodes` share the connections in `nodes[]`, which are
null pointers at first.  `connect` opens them, `close_connections` closes them, and the other
methods use them; three methods ask for `nodes[0]` only, before they use all of them.
`execute_query` and `find_field` do nothing with a null pointer, the functions of the client
library have to be given a connection.  Indices are below 256, the length of `nodes[]`.

* `connect`, `closeConnections` — the loops over `nodes[]`;
* `Call`, `perform` — the methods, `none` when one passes a null pointer to the library;
* `nodes_handles` — no method uses or closes a connection that is not open, and those that are
  open are in `nodes[]`;
* `opens`, `Ready` — a bit that tells when the connections are there, and the methods that need
  it;
* `nodes_calls_iff` — a run of methods passes no null pointer exactly when each of them is ready.
-/

/-- The variables for connections: `nodes[i]`, and `conn` in `check_galera`. -/
inductive Slot where
  | node (i : ℕ)
  | conn
  deriving DecidableEq

/-- What the library and the servers answer while `connect` runs: to `mysql_ping`, whether
    `mysql_init` has memory, and to `mysql_errno`. -/
structure Connecting where
  ping : ℕ → Bool
  init : ℕ → Bool
  errno : ℕ → Bool

/-- `mysql_ping` succeeds on an open connection. -/
def pinged (a : Connecting) (s : Slots Slot) (i : ℕ) : Bool :=
  (s.slot (.node i)).isSome && a.ping i

/-- The first half of the body of the loop in `connect`. -/
def reconnect (a : Connecting) (s : Slots Slot) (i : ℕ) : Slots Slot :=
  if pinged a s i then s.useAt (.node i)
  else ((s.useAt (.node i)).closeAt (.node i)).openAt (.node i) (a.init i)

/-- The body of the loop in `connect`. -/
def connectNode (a : Connecting) (s : Slots Slot × ℕ) (i : ℕ) : Slots Slot × ℕ :=
  let next := (reconnect a s.1 i).useAt (.node i)
  (next, if (next.slot (.node i)).isSome && a.errno i then s.2 + 1 else s.2)

/-- `connect`. -/
def connect (N : ℕ) (a : Connecting) (s : Slots Slot) : Slots Slot × ℕ :=
  (List.range N).foldl (connectNode a) (s, 0)

/-- `close_connections`. -/
def closeConnections (N : ℕ) (s : Slots Slot) : Slots Slot :=
  (List.range N).foldl (fun s i => s.closeAt (.node i)) s

/-- `nodes[i]` is passed to a function that looks whether it is null, `execute_query` or
    `find_field`, or to the client library. -/
inductive Use where
  | guarded (i : ℕ)
  | direct (i : ℕ)

/-- What becomes of it, `none` for a null pointer in the client library. -/
def useNode (s : Slots Slot) : Use → Option (Slots Slot)
  | .guarded i => some (s.useAt (.node i))
  | .direct i => if (s.slot (.node i)).isSome then some (s.useAt (.node i)) else none

/-- Uses of the nodes, one after the other. -/
def useNodes (s : Slots Slot) (uses : List Use) : Option (Slots Slot) := uses.foldlM useNode s

/-- `execute_query` or `find_field` on some nodes. -/
def executeQueries (s : Slots Slot) (is : List ℕ) : Slots Slot :=
  is.foldl (fun s i => s.useAt (.node i)) s

/-- `find_field` finds something: there is a connection, and it answers. -/
def answered (s : Slots Slot) (found : ℕ → Bool) (i : ℕ) : Bool :=
  (s.slot (.node i)).isSome && found i

/-- The nodes that a loop comes to, when it ends behind the first one that is `found`. -/
def untilFound (found : ℕ → Bool) : List ℕ → List ℕ
  | [] => []
  | i :: is => i :: if found i then [] else untilFound found is

/-- `get_versions`: from the first node whose version is not found on, the error is asked for as
    well. -/
def versionUses (found : ℕ → Bool) : Bool → List ℕ → List Use
  | _, [] => []
  | failed, i :: is =>
    let failed' := failed || !found i
    (if failed' then [.guarded i, .direct i] else [.guarded i]) ++ versionUses found failed' is

/-- `check_master_node` for node 0, two queries with an answer or an error and a field, and
    `bad_slave_thread_status` for the others, which asks `tries` times. -/
def statusUses (tries : ℕ → ℕ) (i : ℕ) : List Use :=
  if i = 0 then [.direct i, .direct i, .direct i, .direct i, .guarded i]
  else List.replicate (tries i) (.guarded i)

/-- The uses of the nodes in `check_replication`, with what `get_versions` has `found`, and the
    nodes that are `bad`. -/
def replicationUses (N : ℕ) (found bad : ℕ → Bool) (tries : ℕ → ℕ) : List Use :=
  versionUses found false (List.range N) ++
    if (List.range N).all found then (untilFound bad (List.range N)).flatMap (statusUses tries)
    else []

/-- `flush_hosts` on a node: three queries, the answer to the last one or its error, and the
    anonymous users that are dropped. -/
def flushUses (drops : ℕ → ℕ) (i : ℕ) : List Use := List.replicate (4 + drops i) (.direct i)

/-- `wait_until_pos`: in each round a query, and its answer or its error. -/
def waitUses (rounds : ℕ → ℕ) (i : ℕ) : List Use :=
  List.replicate (2 * (rounds i + 1)) (.direct i)

/-- `close_active_connections` on a node: `none` when the query fails, else the answer is fetched,
    and as many connections are killed. -/
def killUses (kills : ℕ → Option ℕ) (i : ℕ) : List Use :=
  match kills i with
  | none => [.direct i]
  | some k => .direct i :: .direct i :: List.replicate k (.guarded i)

/-- A round of the loop in `check_galera`: a connection of its own; without one the null pointer
    goes to `mysql_error`. -/
def galeraNode (init : ℕ → Bool) (s : Slots Slot) (i : ℕ) : Option (Slots Slot) :=
  if init i then some ((((s.openAt .conn true).useAt .conn).useAt .conn).closeAt .conn) else none

/-- A call of a method, with what it is answered. -/
inductive Call where
  | connect (a : Connecting)
  | closeConnections
  | findMaster (found : ℕ → Bool)
  | changeMaster (newMaster oldMaster : ℕ)
  | stopNodes (a : Connecting)
  | stopSlaves (a : Connecting)
  | startGalera (a b : Connecting)
  | checkReplication (a : Connecting) (found bad : ℕ → Bool) (tries : ℕ → ℕ)
  | checkGalera (a : Connecting) (found init : ℕ → Bool)
  | setReplUser (a : Connecting)
  | getServerId (index : ℕ)
  | flushHosts (a : Connecting) (drops : ℕ → ℕ)
  | executeQueryAllNodes (a : Connecting)
  | getVersions (found : ℕ → Bool)
  | disableSsl (a : Connecting)
  | syncSlaves (a : Connecting) (node : ℕ) (position : Bool) (rounds : ℕ → ℕ)
  | closeActiveConnections (a : Connecting) (kills : ℕ → Option ℕ)

/-- `if (nodes[node] == NULL) connect()`. -/
def connectUnless (N : ℕ) (a : Connecting) (node : ℕ) (s : Slots Slot) : Slots Slot × ℕ :=
  if (s.slot (.node node)).isSome then (s, 0) else connect N a s

/-- `get_versions`. -/
def getVersions (N : ℕ) (found : ℕ → Bool) (s : Slots Slot) : Option (Slots Slot) :=
  useNodes s (versionUses (answered s found) false (List.range N))

/-- What a method does with the connections, `none` when it passes a null pointer to the
    library. -/
def perform (N : ℕ) (s : Slots Slot) : Call → Option (Slots Slot)
  | .connect a => some (connect N a s).1
  | .closeConnections => some (closeConnections N s)
  | .findMaster found => some (executeQueries s (untilFound (answered s found) (List.range N)))
  | .changeMaster newMaster oldMaster =>
    let stopped := executeQueries s ((List.range N).filter (· ≠ oldMaster))
    let asked := executeQueries stopped [newMaster, oldMaster, newMaster, newMaster]
    some (executeQueries asked ((List.range N).filter (· ≠ newMaster)))
  | .stopNodes a => some (executeQueries (connect N a s).1 (List.range N))
  | .stopSlaves a => some (closeConnections N (executeQueries (connect N a s).1 (List.range N)))
  | .startGalera a b =>
    let stopped := executeQueries (connect N a s).1 (List.range N)
    some (closeConnections N (executeQueries (connect N b stopped).1 [0]))
  | .checkReplication a found bad tries =>
    let (opened, res) := connect N a s
    if res = 0 then
      useNodes opened (replicationUses N (answered opened found)
        (fun i => !(answered opened fun i => !bad i) i) tries)
    else some opened
  | .checkGalera a found init => do
    let asked ← getVersions N found (connectUnless N a 0 s).1
    (List.range N).foldlM (galeraNode init) asked
  | .setReplUser a => some (closeConnections N (executeQueries (connect N a s).1 (List.range N)))
  | .getServerId index => some (executeQueries s [index])
  | .flushHosts a drops =>
    let (opened, res) := connectUnless N a 0 s
    if res = 0 then useNodes opened ((List.range N).flatMap (flushUses drops)) else some opened
  | .executeQueryAllNodes a =>
    some (closeConnections N (executeQueries (connect N a s).1 (List.range N)))
  | .getVersions found => getVersions N found s
  | .disableSsl a => some (closeConnections N (executeQueries (connect N a s).1 [0]))
  | .syncSlaves a node position rounds =>
    let others := (List.range N).filter (· ≠ node)
    useNodes (connectUnless N a node s).1
      (.direct node :: .direct node :: if position then others.flatMap (waitUses rounds) else [])
  | .closeActiveConnections a kills =>
    useNodes (connectUnless N a 0 s).1 ((List.range N).flatMap (killUses kills))

/-! ### Handles -/

/-- The connections are those in `nodes[0]` to `nodes[N - 1]`. -/
structure Kept (N : ℕ) (s : Slots Slot) : Prop where
  accounts : Accounts s ∅
  inside : ∀ i, N ≤ i → s.slot (.node i) = none
  conn : s.slot .conn = none

theorem kept_empty (N : ℕ) : Kept N (Slots.empty Slot) := ⟨accounts_empty, fun _ _ => rfl, rfl⟩

/-- `nodes[i]` is not null. -/
def Held (s : Slots Slot) (i : ℕ) : Prop := (s.slot (.node i)).isSome

section Steps

variable {N : ℕ} {s : Slots Slot}

theorem Kept.useAt (h : Kept N s) (slot : Slot) : Kept N (s.useAt slot) := by
  refine ⟨h.accounts.useAt slot, ?_, ?_⟩
  · rw [Slots.useAt_slot]
    exact h.inside
  · rw [Slots.useAt_slot]
    exact h.conn

theorem held_useAt (slot : Slot) (i : ℕ) : Held (s.useAt slot) i ↔ Held s i := by
  rw [Held, Slots.useAt_slot, Held]

theorem Kept.closeNode (h : Kept N s) (i : ℕ) : Kept N (s.closeAt (.node i)) := by
  refine ⟨h.accounts.closeAt _, fun j hj => ?_, ?_⟩
  · by_cases hji : j = i
    · simp [Slots.closeAt_slot, hji]
    · simp [Slots.closeAt_slot, hji, h.inside j hj]
  · simp [Slots.closeAt_slot, h.conn]

theorem Kept.openNode (h : Kept N s) {i : ℕ} (hi : i < N) (hnull : s.slot (.node i) = none)
    (granted : Bool) : Kept N (s.openAt (.node i) granted) := by
  refine ⟨h.accounts.openAt_of_null hnull granted, fun j hj => ?_, ?_⟩
  · have hji : j ≠ i := Nat.ne_of_gt (Nat.lt_of_lt_of_le hi hj)
    simp [Slots.openAt_slot, hji, h.inside j hj]
  · simp [Slots.openAt_slot, h.conn]

/-- The connection of `check_galera` is closed in the round in which it is opened. -/
theorem Kept.galeraNode (h : Kept N s) {init : ℕ → Bool} {i : ℕ} {s' : Slots Slot}
    (hrun : galeraNode init s i = some s') : Kept N s' ∧ ∀ j, Held s' j ↔ Held s j := by
  unfold Connections.galeraNode at hrun
  split at hrun
  · obtain rfl := Option.some.inj hrun
    refine ⟨⟨?_, fun j hj => ?_, ?_⟩, fun j => ?_⟩
    · exact (((h.accounts.openAt_of_null h.conn true).useAt .conn).useAt .conn).closeAt .conn
    · simp [Slots.closeAt_slot, Slots.openAt_slot, h.inside j hj]
    · simp [Slots.closeAt_slot]
    · simp [Held, Slots.closeAt_slot, Slots.openAt_slot]
  · cases hrun

theorem Kept.connectNode (h : Kept N s) (a : Connecting) (res : ℕ) {i : ℕ} (hi : i < N) :
    Kept N (connectNode a (s, res) i).1 := by
  refine Kept.useAt ?_ _
  show Kept N (reconnect a s i)
  unfold reconnect
  split
  · exact h.useAt _
  · refine ((h.useAt _).closeNode i).openNode hi ?_ _
    simp [Slots.closeAt_slot]

/-- With memory for it a node is connected, and those that are connected stay so. -/
theorem held_connectNode (a : Connecting) (res : ℕ) (i : ℕ) (hinit : a.init i = true) {j : ℕ}
    (hj : Held s j ∨ j = i) : Held (connectNode a (s, res) i).1 j := by
  show Held ((reconnect a s i).useAt (.node i)) j
  rw [held_useAt, reconnect]
  split
  · rename_i hping
    rw [held_useAt]
    rcases hj with hj | rfl
    · exact hj
    · exact (Bool.and_eq_true_iff.mp hping).1
  · by_cases hji : j = i
    · simp [Held, Slots.openAt_slot, hji, hinit]
    · have hheld := hj.resolve_right hji
      simpa [Held, Slots.openAt_slot, Slots.closeAt_slot, hji] using hheld

end Steps

/-! ### The loops -/

section Loops

variable {N : ℕ} {s : Slots Slot}

/-- What the body of a loop over `nodes[]` keeps, the loop keeps. -/
theorem foldl_range_keeps {σ : Type*} {P : σ → Prop} {body : σ → ℕ → σ}
    (hbody : ∀ s i, i < N → P s → P (body s i)) {s : σ} (h : P s) :
    P ((List.range N).foldl body s) :=
  List.foldlRecOn _ body h fun s hs i hi => hbody s i (List.mem_range.mp hi) hs

theorem Kept.connect (h : Kept N s) (a : Connecting) : Kept N (connect N a s).1 :=
  foldl_range_keeps (P := fun s : Slots Slot × ℕ => Kept N s.1)
    (fun s _ hi hs => hs.connectNode a s.2 hi) h

/-- `connect` leaves no null pointer. -/
theorem held_connect (s : Slots Slot) {a : Connecting} (hinit : ∀ i, a.init i = true) {i : ℕ}
    (hi : i < N) : Held (connect N a s).1 i := by
  have hloop : ∀ (is : List ℕ) (s : Slots Slot × ℕ), Held s.1 i ∨ i ∈ is →
      Held (is.foldl (connectNode a) s).1 i := by
    intro is
    induction is with
    | nil => exact fun s hs => hs.resolve_right List.not_mem_nil
    | cons j is ih =>
      intro s hs
      refine ih _ ?_
      rw [List.mem_cons, ← or_assoc] at hs
      exact hs.imp_left (held_connectNode a s.2 j (hinit j))
  exact hloop _ _ (.inr (List.mem_range.mpr hi))

theorem Kept.closeConnections (h : Kept N s) : Kept N (closeConnections N s) :=
  foldl_range_keeps (fun _ i _ hs => hs.closeNode i) h

/-- `close_connections` leaves null pointers. -/
theorem not_held_closeConnections (s : Slots Slot) {i : ℕ} (hi : i < N) :
    ¬ Held (closeConnections N s) i := by
  have hloop : ∀ (is : List ℕ) (s : Slots Slot), ¬ Held s i ∨ i ∈ is →
      ¬ Held (is.foldl (fun s i => s.closeAt (.node i)) s) i := by
    intro is
    induction is with
    | nil => exact fun s hs => hs.resolve_right List.not_mem_nil
    | cons j is ih =>
      intro s hs
      refine ih _ ?_
      by_cases hij : i = j
      · simp [Held, Slots.closeAt_slot, hij]
      · have hs' := hs.imp_right fun hmem => (List.mem_cons.mp hmem).resolve_left hij
        simpa [Held, Slots.closeAt_slot, hij] using hs'
  exact hloop _ _ (.inr (List.mem_range.mpr hi))

theorem Kept.executeQueries (h : Kept N s) (is : List ℕ) : Kept N (executeQueries s is) :=
  List.foldlRecOn is _ h fun _ hs _ _ => hs.useAt _

theorem executeQueries_slot (s : Slots Slot) (is : List ℕ) :
    (executeQueries s is).slot = s.slot := by
  induction is generalizing s with
  | nil => rfl
  | cons i is ih => exact (ih _).trans (Slots.useAt_slot s _)

/-- A null pointer is not passed to the client library. -/
def Passes (s : Slots Slot) : Use → Prop
  | .guarded _ => True
  | .direct i => Held s i

theorem useNode_eq (s : Slots Slot) (u : Use) :
    ∃ i, (Passes s u → useNode s u = some (s.useAt (.node i))) ∧
      (¬ Passes s u → useNode s u = none) := by
  cases u with
  | guarded i => exact ⟨i, fun _ => rfl, fun h => absurd trivial h⟩
  | direct i => exact ⟨i, fun h => if_pos h, fun h => if_neg h⟩

theorem passes_useAt (slot : Slot) (u : Use) : Passes (s.useAt slot) u ↔ Passes s u := by
  cases u with
  | guarded i => rfl
  | direct i => exact held_useAt slot i

/-- The connections that are used are there, and stay as they are. -/
theorem useNodes_eq_some {uses : List Use} (h : ∀ u ∈ uses, Passes s u) :
    ∃ is, useNodes s uses = some (executeQueries s is) := by
  induction uses generalizing s with
  | nil => exact ⟨[], rfl⟩
  | cons u uses ih =>
    rw [List.forall_mem_cons] at h
    obtain ⟨i, hi, -⟩ := useNode_eq s u
    obtain ⟨is, his⟩ := ih fun v hv => (passes_useAt (.node i) v).mpr (h.2 v hv)
    refine ⟨i :: is, ?_⟩
    show (useNode s u).bind (fun s' => useNodes s' uses) = _
    rw [hi h.1]
    exact his

/-- The library is called with a null pointer. -/
theorem useNodes_eq_none {uses : List Use} {u : Use} (hu : u ∈ uses) (hnull : ¬ Passes s u) :
    useNodes s uses = none := by
  induction uses generalizing s with
  | nil => exact absurd hu List.not_mem_nil
  | cons v uses ih =>
    show (useNode s v).bind (fun s' => useNodes s' uses) = _
    obtain ⟨i, hi, hnone⟩ := useNode_eq s v
    by_cases hv : Passes s v
    · rw [hi hv]
      have huv : u ≠ v := by
        rintro rfl
        exact hnull hv
      exact ih ((List.mem_cons.mp hu).resolve_left huv) fun h => hnull ((passes_useAt _ u).mp h)
    · rw [hnone hv]
      rfl

theorem Kept.useNodes (h : Kept N s) {uses : List Use} {s' : Slots Slot}
    (hrun : useNodes s uses = some s') : Kept N s' := by
  by_cases hall : ∀ u ∈ uses, Passes s u
  · obtain ⟨is, his⟩ := useNodes_eq_some hall
    rw [his] at hrun
    exact Option.some.inj hrun ▸ h.executeQueries is
  · obtain ⟨u, hu, hnull⟩ : ∃ u ∈ uses, ¬ Passes s u := by simpa using hall
    rw [useNodes_eq_none hu hnull] at hrun
    cases hrun

theorem Kept.connectUnless (h : Kept N s) (a : Connecting) (node : ℕ) :
    Kept N (connectUnless N a node s).1 := by
  unfold Connections.connectUnless
  split
  · exact h
  · exact h.connect a

theorem held_connectUnless {a : Connecting} (hinit : ∀ i, a.init i = true) {node : ℕ}
    (hall : Held s node → ∀ i < N, Held s i) {i : ℕ} (hi : i < N) :
    Held (connectUnless N a node s).1 i := by
  unfold Connections.connectUnless
  split
  · exact hall ‹_› i hi
  · exact held_connect s hinit hi

theorem Kept.galeraNodes {init : ℕ → Bool} {is : List ℕ} {s' : Slots Slot} (h : Kept N s)
    (hrun : is.foldlM (Connections.galeraNode init) s = some s') :
    Kept N s' ∧ ∀ j, Held s' j ↔ Held s j := by
  induction is generalizing s with
  | nil => exact Option.some.inj hrun ▸ ⟨h, fun _ => Iff.rfl⟩
  | cons i is ih =>
    obtain ⟨next, hnext, hrest⟩ := Option.bind_eq_some_iff.mp hrun
    have hround := h.galeraNode hnext
    have hloop := ih hround.1 hrest
    exact ⟨hloop.1, fun j => (hloop.2 j).trans (hround.2 j)⟩

theorem galeraNodes_eq_some {init : ℕ → Bool} (hinit : ∀ i, init i = true) (is : List ℕ)
    (s : Slots Slot) : ∃ s', is.foldlM (galeraNode init) s = some s' := by
  induction is generalizing s with
  | nil => exact ⟨s, rfl⟩
  | cons i is ih =>
    obtain ⟨s', hs'⟩ := ih ((((s.openAt .conn true).useAt .conn).useAt .conn).closeAt .conn)
    refine ⟨s', ?_⟩
    have hround : galeraNode init s i = some _ := if_pos (hinit i)
    rw [List.foldlM_cons, hround]
    exact hs'

end Loops

/-! ### Every answer -/

/-- Whatever is answered, a method keeps the connections in `nodes[]`. -/
theorem perform_kept {N : ℕ} {s s' : Slots Slot} {c : Call} (h : Kept N s)
    (hrun : perform N s c = some s') : Kept N s' := by
  cases c with
  | connect a => exact Option.some.inj hrun ▸ h.connect a
  | closeConnections => exact Option.some.inj hrun ▸ h.closeConnections
  | findMaster found => exact Option.some.inj hrun ▸ h.executeQueries _
  | changeMaster newMaster oldMaster =>
    exact Option.some.inj hrun ▸ ((h.executeQueries _).executeQueries _).executeQueries _
  | stopNodes a => exact Option.some.inj hrun ▸ (h.connect a).executeQueries _
  | stopSlaves a => exact Option.some.inj hrun ▸ ((h.connect a).executeQueries _).closeConnections
  | startGalera a b =>
    have hstopped := (h.connect a).executeQueries (List.range N)
    exact Option.some.inj hrun ▸ ((hstopped.connect b).executeQueries [0]).closeConnections
  | checkReplication a found bad tries =>
    simp only [perform] at hrun
    split at hrun
    · exact (h.connect a).useNodes hrun
    · exact Option.some.inj hrun ▸ h.connect a
  | checkGalera a found init =>
    obtain ⟨asked, hasked, hend⟩ := Option.bind_eq_some_iff.mp hrun
    exact (((h.connectUnless a 0).useNodes hasked).galeraNodes hend).1
  | setReplUser a => exact Option.some.inj hrun ▸ ((h.connect a).executeQueries _).closeConnections
  | getServerId index => exact Option.some.inj hrun ▸ h.executeQueries _
  | flushHosts a drops =>
    simp only [perform] at hrun
    split at hrun
    · exact (h.connectUnless a 0).useNodes hrun
    · exact Option.some.inj hrun ▸ h.connectUnless a 0
  | executeQueryAllNodes a =>
    exact Option.some.inj hrun ▸ ((h.connect a).executeQueries _).closeConnections
  | getVersions found => exact h.useNodes hrun
  | disableSsl a => exact Option.some.inj hrun ▸ ((h.connect a).executeQueries _).closeConnections
  | syncSlaves a node position rounds => exact (h.connectUnless a node).useNodes hrun
  | closeActiveConnections a kills => exact (h.connectUnless a 0).useNodes hrun

/-- Which handles are open. -/
theorem Kept.live {N : ℕ} {s : Slots Slot} (h : Kept N s) :
    ∃ live, after s.trace = some live ∧
      ∀ x, x ∈ live ↔ ∃ i < N, s.slot (.node i) = some x := by
  obtain ⟨live, hlive, hiff⟩ := h.accounts.live
  refine ⟨live, hlive, fun x => (hiff x).trans ⟨?_, fun ⟨i, _, hi⟩ => ⟨_, hi⟩⟩⟩
  rintro ⟨slot, hx⟩
  cases slot with
  | node i =>
    refine ⟨i, ?_, hx⟩
    by_contra hle
    rw [h.inside i (Nat.le_of_not_lt hle)] at hx
    cases hx
  | conn =>
    rw [h.conn] at hx
    cases hx

/-- **No handle is lost.** After any methods, whatever the library and the servers have answered,
    each handle has been used and closed only while it was open, and those that are still open
    are the ones in `nodes[0]` to `nodes[N - 1]`. -/
theorem nodes_handles (N : ℕ) (calls : List Call) (s : Slots Slot)
    (hrun : tryRun (perform N) (Slots.empty Slot) calls = some s) :
    ∃ live, after s.trace = some live ∧
      ∀ x, x ∈ live ↔ ∃ i < N, s.slot (.node i) = some x := by
  have hkept : Kept N s := tryRun_invariant (fun _ _ _ h => perform_kept h) (kept_empty N) hrun
  exact hkept.live

/-- What `connect` is answered when every node is there. -/
def allThere : Connecting := ⟨fun _ => true, fun _ => true, fun _ => false⟩

theorem nodes_handles_two :
    ∃ live, after (connect 2 allThere (closeConnections 2
        (connect 2 allThere (Slots.empty Slot)).1)).1.trace = some live ∧
      ∀ x, x ∈ live ↔ ∃ i < 2, (connect 2 allThere (closeConnections 2
        (connect 2 allThere (Slots.empty Slot)).1)).1.slot (.node i) = some x :=
  nodes_handles 2 [.connect allThere, .closeConnections, .connect allThere] _ rfl

/-! ### One bit -/

/-- Whether a method leaves the connections open. -/
def opens (isOpen : Bool) : Call → Bool
  | .connect _ => true
  | .closeConnections => false
  | .findMaster _ => isOpen
  | .changeMaster _ _ => isOpen
  | .stopNodes _ => true
  | .stopSlaves _ => false
  | .startGalera _ _ => false
  | .checkReplication _ _ _ _ => true
  | .checkGalera _ _ _ => true
  | .setReplUser _ => false
  | .getServerId _ => isOpen
  | .flushHosts _ _ => true
  | .executeQueryAllNodes _ => false
  | .getVersions _ => isOpen
  | .disableSsl _ => false
  | .syncSlaves _ _ _ _ => true
  | .closeActiveConnections _ _ => true

/-- `get_versions` asks for the error of a node that has not answered, and has to have the
    connections; `sync_slaves` has to be given a node that there is. -/
def Ready (N : ℕ) (isOpen : Bool) : Call → Prop
  | .getVersions _ => 0 < N → isOpen = true
  | .syncSlaves _ node _ _ => node < N
  | _ => True

/-- The answers to the calls of `connect` in a method. -/
def Call.connectings : Call → List Connecting
  | .connect a => [a]
  | .closeConnections => []
  | .findMaster _ => []
  | .changeMaster _ _ => []
  | .stopNodes a => [a]
  | .stopSlaves a => [a]
  | .startGalera a b => [a, b]
  | .checkReplication a _ _ _ => [a]
  | .checkGalera a _ _ => [a]
  | .setReplUser a => [a]
  | .getServerId _ => []
  | .flushHosts a _ => [a]
  | .executeQueryAllNodes a => [a]
  | .getVersions _ => []
  | .disableSsl a => [a]
  | .syncSlaves a _ _ _ => [a]
  | .closeActiveConnections a _ => [a]

/-- `mysql_init` has memory for the connections in a method. -/
def Call.Granted (c : Call) : Prop :=
  (∀ a ∈ c.connectings, ∀ i, a.init i = true) ∧
    ∀ a found init, c = .checkGalera a found init → ∀ i, init i = true

/-- All connections are there, or none is. -/
structure AllOrNone (N : ℕ) (s : Slots Slot) (isOpen : Bool) : Prop where
  kept : Kept N s
  held : ∀ i < N, Held s i ↔ isOpen = true

theorem not_held_of_le {N : ℕ} {s : Slots Slot} (h : Kept N s) {i : ℕ} (hi : N ≤ i) :
    ¬ Held s i := by
  simp [Held, h.inside i hi]

/-! ### Which nodes a method asks -/

theorem mem_untilFound {found : ℕ → Bool} {is : List ℕ} {i : ℕ} (h : i ∈ untilFound found is) :
    i ∈ is := by
  induction is with
  | nil => exact h
  | cons j is ih =>
    rw [untilFound] at h
    split at h
    · refine List.mem_cons.mpr ((List.mem_cons.mp h).imp_right fun hnil => ?_)
      exact absurd hnil List.not_mem_nil
    · exact List.mem_cons.mpr ((List.mem_cons.mp h).imp_right ih)

/-- The node of a use. -/
def Use.index : Use → ℕ
  | .guarded i => i
  | .direct i => i

theorem mem_versionUses {found : ℕ → Bool} {failed : Bool} {is : List ℕ} {u : Use}
    (h : u ∈ versionUses found failed is) : u.index ∈ is := by
  induction is generalizing failed with
  | nil => cases h
  | cons j is ih =>
    rw [versionUses] at h
    rcases List.mem_append.mp h with h | h
    · refine List.mem_cons.mpr (.inl ?_)
      split at h
      · rcases List.mem_cons.mp h with rfl | h
        · rfl
        · rw [List.mem_singleton.mp h]
          rfl
      · rw [List.mem_singleton.mp h]
        rfl
    · exact List.mem_cons.mpr (.inr (ih h))

/-- Without an answer from node 0 the first error that is asked for is its own. -/
theorem direct_zero_mem_versionUses {N : ℕ} (hN : 0 < N) {found : ℕ → Bool}
    (hnot : found 0 = false) : .direct 0 ∈ versionUses found false (List.range N) := by
  obtain ⟨n, rfl⟩ := Nat.exists_eq_succ_of_ne_zero (Nat.ne_of_gt hN)
  simp [List.range_succ_eq_map, versionUses, hnot]

theorem mem_flatMap_uses {is : List ℕ} {uses : ℕ → List Use}
    (huses : ∀ i, ∀ u ∈ uses i, u.index = i) {u : Use} (h : u ∈ is.flatMap uses) : u.index ∈ is := by
  obtain ⟨j, hj, hu⟩ := List.mem_flatMap.mp h
  rwa [huses j u hu]

theorem mem_statusUses (tries : ℕ → ℕ) (i : ℕ) : ∀ u ∈ statusUses tries i, u.index = i := by
  intro u hu
  unfold statusUses at hu
  split at hu
  · rename_i hzero
    simp only [List.mem_cons, List.not_mem_nil, or_false] at hu
    rcases hu with rfl | rfl | rfl | rfl | rfl <;> rfl
  · rw [(List.mem_replicate.mp hu).2]
    rfl

theorem mem_flushUses (drops : ℕ → ℕ) (i : ℕ) : ∀ u ∈ flushUses drops i, u.index = i := by
  intro u hu
  rw [(List.mem_replicate.mp hu).2]
  rfl

theorem mem_waitUses (rounds : ℕ → ℕ) (i : ℕ) : ∀ u ∈ waitUses rounds i, u.index = i := by
  intro u hu
  rw [(List.mem_replicate.mp hu).2]
  rfl

theorem mem_killUses (kills : ℕ → Option ℕ) (i : ℕ) : ∀ u ∈ killUses kills i, u.index = i := by
  intro u hu
  unfold killUses at hu
  split at hu
  · rw [List.mem_singleton.mp hu]
    rfl
  · rcases List.mem_cons.mp hu with rfl | hu
    · rfl
    rcases List.mem_cons.mp hu with rfl | hu
    · rfl
    · rw [(List.mem_replicate.mp hu).2]
      rfl

theorem mem_replicationUses {N : ℕ} {found bad : ℕ → Bool} {tries : ℕ → ℕ} {u : Use}
    (h : u ∈ replicationUses N found bad tries) : u.index < N := by
  rcases List.mem_append.mp h with h | h
  · exact List.mem_range.mp (mem_versionUses h)
  · split at h
    · exact List.mem_range.mp (mem_untilFound (mem_flatMap_uses (mem_statusUses tries) h))
    · cases h

/-! ### The bit tells -/

namespace AllOrNone

variable {N : ℕ} {s : Slots Slot} {isOpen : Bool}

theorem executeQueries (h : AllOrNone N s isOpen) (is : List ℕ) :
    AllOrNone N (executeQueries s is) isOpen := by
  refine ⟨h.kept.executeQueries is, fun i hi => ?_⟩
  rw [Held, executeQueries_slot]
  exact h.held i hi

/-- What is used is there when the connections are open. -/
theorem useNodes (h : AllOrNone N s isOpen) {uses : List Use} (hopen : isOpen = true)
    (huses : ∀ u ∈ uses, u.index < N) :
    ∃ s', useNodes s uses = some s' ∧ AllOrNone N s' isOpen := by
  have hpass : ∀ u ∈ uses, Passes s u := by
    intro u hu
    cases u with
    | guarded i => trivial
    | direct i => exact (h.held i (huses _ hu)).mpr hopen
  obtain ⟨is, his⟩ := useNodes_eq_some hpass
  exact ⟨_, his, h.executeQueries is⟩

theorem getVersions (h : AllOrNone N s isOpen) (hopen : 0 < N → isOpen = true)
    (found : ℕ → Bool) : ∃ s', getVersions N found s = some s' ∧ AllOrNone N s' isOpen := by
  rcases Nat.eq_zero_or_pos N with rfl | hN
  · exact ⟨s, rfl, h⟩
  · exact h.useNodes (hopen hN) fun u hu => List.mem_range.mp (mem_versionUses hu)

theorem connect (h : Kept N s) {a : Connecting} (ha : ∀ i, a.init i = true) :
    AllOrNone N (connect N a s).1 true :=
  ⟨h.connect a, fun _ hi => iff_of_true (held_connect s ha hi) rfl⟩

theorem closeConnections (h : Kept N s) : AllOrNone N (closeConnections N s) false :=
  ⟨h.closeConnections, fun _ hi => iff_of_false (not_held_closeConnections s hi) nofun⟩

/-- The question about one node tells of all of them. -/
theorem connectUnless (h : AllOrNone N s isOpen) {a : Connecting} (ha : ∀ i, a.init i = true)
    {node : ℕ} (hnode : node < N ∨ N = 0) : AllOrNone N (connectUnless N a node s).1 true := by
  refine ⟨h.kept.connectUnless a node, fun i hi => iff_of_true ?_ rfl⟩
  refine held_connectUnless ha (fun hheld j hj => ?_) hi
  have hlt : node < N := hnode.resolve_right (Nat.ne_of_gt (Nat.zero_lt_of_lt hi))
  exact (h.held j hj).mpr ((h.held node hlt).mp hheld)

theorem zero_node (N : ℕ) : 0 < N ∨ N = 0 := (Nat.eq_zero_or_pos N).symm

end AllOrNone

/-- A method that is ready passes no null pointer, and leaves the connections as the bit tells. -/
theorem perform_of_ready {N : ℕ} {s : Slots Slot} {isOpen : Bool} {c : Call}
    (h : AllOrNone N s isOpen) (hinit : c.Granted) (hready : Ready N isOpen c) :
    ∃ s', perform N s c = some s' ∧ AllOrNone N s' (opens isOpen c) := by
  obtain ⟨hconnect, hgalera⟩ := hinit
  cases c with
  | connect a => exact ⟨_, rfl, .connect h.kept (hconnect a (by simp [Call.connectings]))⟩
  | closeConnections => exact ⟨_, rfl, .closeConnections h.kept⟩
  | findMaster found => exact ⟨_, rfl, h.executeQueries _⟩
  | changeMaster newMaster oldMaster =>
    exact ⟨_, rfl, ((h.executeQueries _).executeQueries _).executeQueries _⟩
  | stopNodes a =>
    have hconnected := AllOrNone.connect h.kept (hconnect a (by simp [Call.connectings]))
    exact ⟨_, rfl, hconnected.executeQueries _⟩
  | stopSlaves a => exact ⟨_, rfl, .closeConnections ((h.kept.connect a).executeQueries _)⟩
  | startGalera a b =>
    have hstopped := (h.kept.connect a).executeQueries (List.range N)
    exact ⟨_, rfl, .closeConnections ((hstopped.connect b).executeQueries [0])⟩
  | checkReplication a found bad tries =>
    have hopened := AllOrNone.connect h.kept (hconnect a (by simp [Call.connectings]))
    simp only [perform]
    split
    · exact hopened.useNodes rfl fun u hu => mem_replicationUses hu
    · exact ⟨_, rfl, hopened⟩
  | checkGalera a found init =>
    have hopened := h.connectUnless (hconnect a (by simp [Call.connectings]))
      (AllOrNone.zero_node N)
    obtain ⟨asked, hasked, hend⟩ := hopened.getVersions (fun _ => rfl) found
    obtain ⟨s', hs'⟩ := galeraNodes_eq_some (hgalera a found init rfl) (List.range N) asked
    obtain ⟨hkept, hheld⟩ := hend.kept.galeraNodes hs'
    refine ⟨s', ?_, hkept, fun i hi => (hheld i).trans (hend.held i hi)⟩
    rw [perform, hasked]
    exact hs'
  | setReplUser a => exact ⟨_, rfl, .closeConnections ((h.kept.connect a).executeQueries _)⟩
  | getServerId index => exact ⟨_, rfl, h.executeQueries _⟩
  | flushHosts a drops =>
    have hopened := h.connectUnless (hconnect a (by simp [Call.connectings]))
      (AllOrNone.zero_node N)
    simp only [perform]
    split
    · exact hopened.useNodes rfl fun u hu =>
        List.mem_range.mp (mem_flatMap_uses (mem_flushUses drops) hu)
    · exact ⟨_, rfl, hopened⟩
  | executeQueryAllNodes a =>
    exact ⟨_, rfl, .closeConnections ((h.kept.connect a).executeQueries _)⟩
  | getVersions found => exact h.getVersions hready found
  | disableSsl a => exact ⟨_, rfl, .closeConnections ((h.kept.connect a).executeQueries _)⟩
  | syncSlaves a node position rounds =>
    have hopened := h.connectUnless (hconnect a (by simp [Call.connectings])) (.inl hready)
    refine hopened.useNodes rfl fun u hu => ?_
    rcases List.mem_cons.mp hu with rfl | hu
    · exact hready
    rcases List.mem_cons.mp hu with rfl | hu
    · exact hready
    split at hu
    · exact List.mem_range.mp
        (List.mem_filter.mp (mem_flatMap_uses (mem_waitUses rounds) hu)).1
    · cases hu
  | closeActiveConnections a kills =>
    have hopened := h.connectUnless (hconnect a (by simp [Call.connectings]))
      (AllOrNone.zero_node N)
    exact hopened.useNodes rfl fun u hu =>
      List.mem_range.mp (mem_flatMap_uses (mem_killUses kills) hu)

/-- A method that is not ready passes a null pointer. -/
theorem perform_of_not_ready {N : ℕ} {s : Slots Slot} {isOpen : Bool} {c : Call}
    (h : AllOrNone N s isOpen) (hnot : ¬ Ready N isOpen c) : perform N s c = none := by
  cases c with
  | getVersions found =>
    obtain ⟨hN, hclosed⟩ := Classical.not_imp.mp hnot
    have hnull : ¬ Held s 0 := fun hheld => hclosed ((h.held 0 hN).mp hheld)
    have hfirst : answered s found 0 = false := by
      rw [answered, Bool.eq_false_iff.mpr hnull, Bool.false_and]
    exact useNodes_eq_none (direct_zero_mem_versionUses hN hfirst) hnull
  | syncSlaves a node position rounds =>
    refine useNodes_eq_none (u := .direct node) List.mem_cons_self ?_
    exact not_held_of_le (h.kept.connectUnless a node) (Nat.le_of_not_lt hnot)
  | _ => exact absurd trivial hnot

/-- **The question about `nodes[0]` is enough.** While `mysql_init` has memory, a run of methods
    passes no null pointer to the library exactly when `get_versions` comes only at a time when
    the connections are open, and `sync_slaves` names a node that there is.  After it what is open
    are the connections in `nodes[]`, one for each node or none at all. -/
theorem nodes_calls_iff (N : ℕ) (calls : List Call) (hinit : ∀ c ∈ calls, c.Granted) :
    ((∃ s, tryRun (perform N) (Slots.empty Slot) calls = some s) ↔
        StepsHold opens (Ready N) false calls) ∧
      ∀ s, tryRun (perform N) (Slots.empty Slot) calls = some s →
        (∃ live, after s.trace = some live ∧
          ∀ x, x ∈ live ↔ ∃ i < N, s.slot (.node i) = some x) ∧
        ∀ i < N, (s.slot (.node i)).isSome = run opens false calls := by
  have hstart : AllOrNone N (Slots.empty Slot) false :=
    ⟨kept_empty N, fun _ _ => iff_of_false nofun nofun⟩
  have hgood : ∀ s isOpen (c : Call), AllOrNone N s isOpen → c.Granted → Ready N isOpen c →
      ∃ s', perform N s c = some s' ∧ AllOrNone N s' (opens isOpen c) :=
    fun _ _ _ h hinit hready => perform_of_ready h hinit hready
  obtain ⟨hiff, hend⟩ := simulated_iff hgood (fun _ _ _ h _ hnot => perform_of_not_ready h hnot)
    hstart hinit
  refine ⟨hiff, fun s hrun => ⟨(hend s hrun).kept.live, fun i hi => ?_⟩⟩
  exact Bool.eq_iff_iff.mpr ((hend s hrun).held i hi)

theorem nodes_calls_forgotten :
    ¬ ∃ s, tryRun (perform 2) (Slots.empty Slot)
        [.flushHosts allThere fun _ => 0, .closeConnections, .getVersions fun _ => true] =
          some s := by
  have hinit : ∀ c ∈ [Call.flushHosts allThere fun _ => 0, .closeConnections,
      .getVersions fun _ => true], c.Granted := by
    simp [Call.Granted, Call.connectings, allThere]
  rw [(nodes_calls_iff 2 _ hinit).1]
  intro hsteps
  have hlast := hsteps [.flushHosts allThere fun _ => 0, .closeConnections]
    (.getVersions fun _ => true) (by simp)
  exact absurd (hlast (by decide)) (by decide)

end MaxScaleSystemTest.Nodes.Connections
