import MaxScaleSystemTest.Sql.FindField

namespace MaxScaleSystemTest.Nodes

open CString Sql

/-!
# Finding the master

`Mariadb_nodes::find_master` asks the nodes in turn for the host of their master and looks
the first answer up among the addresses of the nodes.  It takes a return value 0 of
`find_field` for an answer, and `find_field` returns 0 on a server that is no slave too: its
status has the column but no row, and the buffer is left as it was.

* `scanMaster_of_slave`, `scanMaster_of_master` — what the first node's status leads to;
* `find_master_iff` — the master is found exactly where it is not the first node.
-/

/-- A node: its address, and what its connection answers to `show slave status;`. -/
structure Node where
  ip : Bytes
  conn : Option QueryReply

/-- The name of the column asked for. -/
def masterHost : Bytes := ascii "Master_Host"

/-- The first loop of `find_master`: `master_IP` once it is set, `none` when the program
    faults.  `str` is what the buffer of that name holds. -/
def scanMaster (nullText : Option Bytes) : List Node → (str : Bytes) → Option (Option Bytes)
  | [], _ => some none
  | node :: nodes, str =>
    match findField nullText node.conn masterHost str with
    | none => none
    | some answer =>
      if answer.ret = 0 then some (some answer.value) else scanMaster nullText nodes answer.value

/-- The second loop of `find_master`, from index `i` on; 255 stands for no node. -/
def scanAddress (masterIP : Bytes) : List Node → (i : ℕ) → ℕ
  | [], _ => 255
  | node :: nodes, i => if node.ip = masterIP then i else scanAddress masterIP nodes (i + 1)

/-- `Mariadb_nodes::find_master`; `str` is what its uninitialised buffer holds. -/
def findMaster (nullText : Option Bytes) (nodes : List Node) (str : Bytes) : Option ℕ :=
  match scanMaster nullText nodes str with
  | none => none
  | some none => some 255
  | some (some masterIP) => some (scanAddress masterIP nodes 0)

/-! ### The topologies -/

/-- A server that is no slave: `show slave status` has the column but no row. -/
def NoSlave (conn : Option QueryReply) : Prop :=
  ∃ res : ResultSet, conn = some (.result res) ∧ (firstMatch masterHost res.fields).isSome ∧
    res.rows = []

/-- Node `m` is no slave and every other node names it as its master. -/
structure ReplicatesFrom (nodes : List Node) (m : ℕ) : Prop where
  distinct : (nodes.map Node.ip).Nodup
  noSlave : ∃ h : m < nodes.length, NoSlave nodes[m].conn
  slaves : ∀ i (h : i < nodes.length), i ≠ m →
    ∃ master ∈ nodes[m]?, suppliedCell nodes[i].conn masterHost = some master.ip

/-- `find_master` finds node `m`, through an address some reply has supplied. -/
def FindsMaster (nullText : Option Bytes) (nodes : List Node) (m : ℕ) (str : Bytes) : Prop :=
  ∃ masterIP, scanMaster nullText nodes str = some (some masterIP) ∧
    (∃ node ∈ nodes, suppliedCell node.conn masterHost = some masterIP) ∧
    findMaster nullText nodes str = some m

/-! ### The two loops -/

/-- The first node's status is the answer when it supplies one. -/
theorem scanMaster_of_slave (nullText : Option Bytes) {node : Node} {addr : Bytes}
    (h : suppliedCell node.conn masterHost = some addr) (nodes : List Node) (str : Bytes) :
    scanMaster nullText (node :: nodes) str = some (some addr) := by
  rw [scanMaster, findField_of_supplied nullText str h]
  rfl

/-- On a first node that is no slave the uninitialised buffer is the answer. -/
theorem scanMaster_of_master (nullText : Option Bytes) {node : Node} (h : NoSlave node.conn)
    (nodes : List Node) (str : Bytes) :
    scanMaster nullText (node :: nodes) str = some (some str) := by
  obtain ⟨res, hconn, hfield, hrows⟩ := h
  obtain ⟨k, hk⟩ := Option.isSome_iff_exists.mp hfield
  have hrow : res.firstRow = none := by rw [ResultSet.firstRow, hrows]; rfl
  rw [scanMaster, hconn, findField_spec, hk, hrow]
  rfl

/-- A status without a row supplies nothing. -/
theorem suppliedCell_of_noSlave {conn : Option QueryReply} (h : NoSlave conn) :
    suppliedCell conn masterHost = none := by
  obtain ⟨res, rfl, -, hrows⟩ := h
  cases hcell : suppliedCell (some (.result res)) masterHost with
  | none => rfl
  | some cell =>
    obtain ⟨k, row, text, -, hrow, -⟩ := (suppliedCell_eq_some_iff _ _ _).mp hcell
    rw [hrows] at hrow
    cases hrow

/-- Among distinct addresses the second loop stops at the node it looks for. -/
theorem scanAddress_eq {nodes : List Node} (hdistinct : (nodes.map Node.ip).Nodup) {m : ℕ}
    (hm : m < nodes.length) (i : ℕ) : scanAddress nodes[m].ip nodes i = i + m := by
  induction nodes generalizing i m with
  | nil => exact absurd hm (Nat.not_lt_zero m)
  | cons node nodes ih =>
    rw [List.map_cons, List.nodup_cons] at hdistinct
    match m with
    | 0 => simp [scanAddress]
    | m + 1 =>
      have hlt : m < nodes.length := Nat.lt_of_succ_lt_succ hm
      have hne : node.ip ≠ nodes[m].ip := by
        intro heq
        exact hdistinct.1 (heq ▸ List.mem_map_of_mem (List.getElem_mem hlt))
      rw [scanAddress, List.getElem_cons_succ, if_neg hne, ih hdistinct.2 hlt]
      omega

/-! ### Which masters are found -/

/-- **The first node.** In a topology with node `m` as its master, `find_master` finds `m`
    whatever its buffer holds at the start, through a supplied address, exactly when `m` is
    not the first node. -/
theorem find_master_iff (nullText : Option Bytes) (nodes : List Node) (m : ℕ)
    (h : ReplicatesFrom nodes m) :
    (∀ str, FindsMaster nullText nodes m str) ↔ m ≠ 0 := by
  obtain ⟨hm, hnoSlave⟩ := h.noSlave
  obtain ⟨first, rest, rfl⟩ := List.exists_cons_of_length_pos (Nat.zero_lt_of_lt hm)
  constructor
  · rintro hall rfl
    -- an address that no reply names: the master's own with a byte more
    obtain ⟨masterIP, hscan, ⟨node, hnode, hcell⟩, -⟩ := hall (first.ip ++ [1])
    have hbuffer : scanMaster nullText (first :: rest) (first.ip ++ [1])
        = some (some (first.ip ++ [1])) := scanMaster_of_master nullText hnoSlave rest _
    rw [hbuffer] at hscan
    cases hscan
    obtain ⟨i, hi, rfl⟩ := List.mem_iff_getElem.mp hnode
    by_cases hfirst : i = 0
    · subst hfirst
      rw [suppliedCell_of_noSlave hnoSlave] at hcell
      cases hcell
    · obtain ⟨master, hmaster, hip⟩ := h.slaves i hi hfirst
      cases hmaster
      rw [hip] at hcell
      simp at hcell
  · intro hne str
    obtain ⟨master, hmaster, hip⟩ := h.slaves 0 (Nat.zero_lt_of_lt hm) (Ne.symm hne)
    have hmaster : (first :: rest)[m] = master := by
      rw [List.getElem?_eq_getElem hm] at hmaster
      exact Option.some.inj hmaster
    have hscan : scanMaster nullText (first :: rest) str = some (some master.ip) :=
      scanMaster_of_slave nullText hip rest str
    refine ⟨master.ip, hscan, ⟨first, List.mem_cons_self, hip⟩, ?_⟩
    rw [findMaster, hscan]
    show some (scanAddress master.ip (first :: rest) 0) = some m
    rw [← hmaster, scanAddress_eq h.distinct hm, Nat.zero_add]

/-- The status of a slave of `addr`. -/
def slaveStatusOf (addr : Bytes) : ResultSet where
  fields := emptySlaveStatus.fields
  rows := [[some (ascii "Waiting for master"), some addr, some (ascii "repl")]]
  width := by simp [emptySlaveStatus]

/-- A node that is no slave. -/
def exampleMaster : Node := ⟨ascii "192.168.122.11", some (.result emptySlaveStatus)⟩

/-- Its slave, whose address is a prefix of the master's. -/
def exampleSlave : Node := ⟨ascii "192.168.122.1", some (.result (slaveStatusOf exampleMaster.ip))⟩

/-- The two nodes replicate, whichever of them comes first. -/
theorem example_noSlave : NoSlave exampleMaster.conn :=
  ⟨emptySlaveStatus, rfl, by decide +kernel, rfl⟩

theorem example_supplied :
    suppliedCell exampleSlave.conn masterHost = some exampleMaster.ip := by
  decide +kernel

theorem example_master_last : ReplicatesFrom [exampleSlave, exampleMaster] 1 where
  distinct := by decide +kernel
  noSlave := ⟨by decide, example_noSlave⟩
  slaves := by
    intro i hi hne
    obtain rfl : i = 0 := by simp at hi; omega
    exact ⟨exampleMaster, rfl, example_supplied⟩

theorem example_master_first : ReplicatesFrom [exampleMaster, exampleSlave] 0 where
  distinct := by decide +kernel
  noSlave := ⟨by decide, example_noSlave⟩
  slaves := by
    intro i hi hne
    obtain rfl : i = 1 := by simp at hi; omega
    exact ⟨exampleMaster, rfl, example_supplied⟩

/-- A master that comes last is found. -/
theorem find_master_last :
    (∀ str, FindsMaster (some (ascii "(null)")) [exampleSlave, exampleMaster] 1 str) ↔ 1 ≠ 0 :=
  find_master_iff (some (ascii "(null)")) [exampleSlave, exampleMaster] 1 example_master_last

/-- With the master first and an empty string in the buffer, 255 is returned. -/
theorem find_master_first :
    ReplicatesFrom [exampleMaster, exampleSlave] 0 ∧
      findMaster (some (ascii "(null)")) [exampleMaster, exampleSlave] [] = some 255 ∧
      ¬ FindsMaster (some (ascii "(null)")) [exampleMaster, exampleSlave] 0 [] := by
  have hfound : findMaster (some (ascii "(null)")) [exampleMaster, exampleSlave] [] = some 255 := by
    decide +kernel
  refine ⟨example_master_first, hfound, ?_⟩
  rintro ⟨masterIP, -, -, hzero⟩
  rw [hfound] at hzero
  cases hzero

end MaxScaleSystemTest.Nodes
