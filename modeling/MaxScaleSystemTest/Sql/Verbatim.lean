import MaxScaleSystemTest.Firewall.QueryFiles
import MaxScaleSystemTest.Sql.Query
import Mathlib.Data.List.FinRange
import Mathlib.Logic.Function.Basic

namespace MaxScaleSystemTest.Sql.Verbatim

open CString Printf Firewall

/-!
# Query texts on their way to the server

`try_query_all`, `execute_query_all_nodes` and the loops of the firewall tests pass a text to
a variadic helper, which takes it for a format.

* `tryQueryAll_verbatim_iff`, `executeQueryAllNodes_verbatim_iff` — the helpers submit a text
  as it is exactly when it holds no percent sign;
* `sent_eq_fileLines_iff` — the loops submit the lines of a file exactly when each fits the
  buffer and holds neither a percent sign nor a NUL.
-/

/-- A C string. -/
structure SqlString where
  text : Bytes
  nulFree : 0 ∉ text

/-- The texts `execute_query1` passes to `mysql_query`. -/
def submitted (conn : Option Mysql) (sql : Bytes) : List Bytes :=
  match conn with
  | none => []
  | some _ => [sql]

/-! ### `try_query_all` -/

/-- What `try_query` leaves: the object, its result, the connection, and what it submitted. -/
structure TryEnd where
  t : TestConnections
  result : ℤ
  conn : Option Mysql
  sent : List Bytes

/-- `TestConnections::try_query` without further arguments. -/
def tryQuery (elapsedTime : Bytes → Bytes) (t : TestConnections) (conn : Option Mysql)
    (format : Bytes) : Option TryEnd := do
  let sql ← message format
  let query := executeQuery1 conn sql false
  let printed := { t with stdout := t.stdout ++ query.stdout }
  let dots := if sql.length < 100 then [] else ascii "..."
  return {
    t := report elapsedTime printed (Int32.ofInt query.status) (ascii "Query '%.*s%s' failed!\n")
      (ascii "Query '" ++ sql.take 100 ++ dots ++ ascii "' failed!\n")
    result := query.status
    conn := query.conn
    sent := submitted conn sql }

/-- The connections to the three routers. -/
inductive Router where
  | rwsplit
  | master
  | slave
  deriving DecidableEq

/-- What `try_query_all` leaves; `sent` are the texts submitted on each connection. -/
structure TryAllEnd where
  t : TestConnections
  result : ℤ
  conns : Router → Option Mysql
  sent : Router → List Bytes

/-- `TestConnections::try_query_all`. -/
def tryQueryAll (elapsedTime : Bytes → Bytes) (t : TestConnections)
    (conns : Router → Option Mysql) (sql : Bytes) : Option TryAllEnd := do
  let rwsplit ← tryQuery elapsedTime t (conns .rwsplit) sql
  let master ← tryQuery elapsedTime rwsplit.t (conns .master) sql
  let slave ← tryQuery elapsedTime master.t (conns .slave) sql
  return {
    t := slave.t
    result := rwsplit.result + master.result + slave.result
    conns := fun
      | .rwsplit => rwsplit.conn
      | .master => master.conn
      | .slave => slave.conn
    sent := fun
      | .rwsplit => rwsplit.sent
      | .master => master.sent
      | .slave => slave.sent }

/-- On every connection there is, `try_query_all` submits the text as it is. -/
def TryAllVerbatim (sql : SqlString) : Prop :=
  ∀ elapsedTime t conns, ∃ e, tryQueryAll elapsedTime t conns sql.text = some e ∧
    ∀ router, e.sent router = submitted (conns router) sql.text

/-- A text that passes the helpers unchanged. -/
def Plain (sql : SqlString) : Prop := percent ∉ sql.text ∧ sql.text.length < 2 ^ 31 - 1

theorem plain_iff {sql : SqlString} : Plain sql ↔ message sql.text = some sql.text :=
  message_eq_self_iff.symm

/-- What `try_query` submits. -/
theorem tryQuery_sent (elapsedTime : Bytes → Bytes) (t : TestConnections) (conn : Option Mysql)
    {format sql : Bytes} (h : message format = some sql) :
    ∃ e, tryQuery elapsedTime t conn format = some e ∧ e.sent = submitted conn sql :=
  ⟨_, by rw [tryQuery, h]; rfl, rfl⟩

/-- What `try_query_all` submits. -/
theorem tryQueryAll_sent (elapsedTime : Bytes → Bytes) (t : TestConnections)
    (conns : Router → Option Mysql) {format sql : Bytes} (h : message format = some sql) :
    ∃ e, tryQueryAll elapsedTime t conns format = some e ∧
      ∀ router, e.sent router = submitted (conns router) sql := by
  obtain ⟨rwsplit, hrwsplit, hsent₁⟩ := tryQuery_sent elapsedTime t (conns .rwsplit) h
  obtain ⟨master, hmaster, hsent₂⟩ := tryQuery_sent elapsedTime rwsplit.t (conns .master) h
  obtain ⟨slave, hslave, hsent₃⟩ := tryQuery_sent elapsedTime master.t (conns .slave) h
  refine ⟨_, by rw [tryQueryAll, hrwsplit, Option.bind_eq_bind, Option.bind_some, hmaster,
    Option.bind_some, hslave]; rfl, fun router => ?_⟩
  cases router with
  | rwsplit => exact hsent₁
  | master => exact hsent₂
  | slave => exact hsent₃

/-- A text that cannot be made is not submitted anywhere. -/
theorem tryQueryAll_eq_none (elapsedTime : Bytes → Bytes) (t : TestConnections)
    (conns : Router → Option Mysql) {format : Bytes} (h : message format = none) :
    tryQueryAll elapsedTime t conns format = none := by
  simp [tryQueryAll, tryQuery, h]

/-- A connection that answers every text with success. -/
def willing : Mysql where
  answer := fun _ => (.ok ⟨none, 0⟩, [])
  current := none
  pending := []
  stored := []
  lastError := []

/-- **`try_query_all`.** It submits the text as it is exactly when the text is plain. -/
theorem tryQueryAll_verbatim_iff (sql : SqlString) : TryAllVerbatim sql ↔ Plain sql := by
  rw [plain_iff]
  refine ⟨fun h => ?_, fun h elapsedTime t conns => tryQueryAll_sent elapsedTime t conns h⟩
  obtain ⟨e, he, hsent⟩ := h id ⟨0, []⟩ fun _ => some willing
  cases htext : message sql.text with
  | none =>
    rw [tryQueryAll_eq_none _ _ _ htext] at he
    cases he
  | some text =>
    obtain ⟨e', he', hsent'⟩ := tryQueryAll_sent id ⟨0, []⟩ (fun _ => some willing) htext
    obtain rfl : e = e' := Option.some.inj (he.symm.trans he')
    -- what the first connection gets is the text, and what is made of it
    have heq : [text] = [sql.text] := (hsent' .rwsplit).symm.trans (hsent .rwsplit)
    rw [List.singleton_inj.mp heq]

/-! ### `execute_query_all_nodes` -/

section Nodes

variable {N : ℕ}

/-- `Mariadb_nodes::connect`: a node without a connection, or with one that does not answer a
    ping, gets a new one. -/
def connect (ping : Fin N → Bool) (opened nodes : Fin N → Option Mysql) :
    Fin N → Option Mysql := fun i =>
  match nodes i with
  | none => opened i
  | some conn => if ping i then some conn else opened i

/-- `execute_query` without further arguments, with what it submits. -/
def executeQuery (conn : Option Mysql) (format : Bytes) : Option (QueryEnd × List Bytes) :=
  (message format).map fun sql => (executeQuery1 conn sql false, submitted conn sql)

/-- What `execute_query_all_nodes` leaves; `sent` are the texts submitted on each node. -/
structure AllNodesEnd (N : ℕ) where
  localResult : ℤ
  stdout : Bytes
  nodes : Fin N → Option Mysql
  sent : Fin N → List Bytes

/-- One round of the loop. -/
def nodeRound (sql : Bytes) (e : AllNodesEnd N) (i : Fin N) : Option (AllNodesEnd N) := do
  let (query, sent) ← executeQuery (e.nodes i) sql
  return {
    localResult := e.localResult + query.status
    stdout := e.stdout ++ query.stdout
    nodes := Function.update e.nodes i query.conn
    sent := Function.update e.sent i (e.sent i ++ sent) }

/-- `Mariadb_nodes::execute_query_all_nodes`. -/
def executeQueryAllNodes (ping : Fin N → Bool) (opened nodes : Fin N → Option Mysql)
    (sql : Bytes) : Option (AllNodesEnd N) := do
  let start := ⟨0, [], connect ping opened nodes, fun _ => []⟩
  let e ← (List.finRange N).foldlM (nodeRound sql) start
  -- `close_connections`
  return { e with nodes := fun _ => none }

end Nodes

/-- On every connection it makes, `execute_query_all_nodes` submits the text as it is. -/
def AllNodesVerbatim (sql : SqlString) : Prop :=
  ∀ (N : ℕ) (ping : Fin N → Bool) (opened nodes : Fin N → Option Mysql),
    ∃ e, executeQueryAllNodes ping opened nodes sql.text = some e ∧
      ∀ i, e.sent i = submitted (connect ping opened nodes i) sql.text

section Nodes

variable {N : ℕ}

/-- **Loop.** Every node of a list gets the text once, and the others are left alone. -/
theorem foldlM_nodeRound {format sql : Bytes} (h : message format = some sql)
    {is : List (Fin N)} (hnodup : is.Nodup) (e : AllNodesEnd N) :
    ∃ e', is.foldlM (nodeRound format) e = some e' ∧
      ∀ i, e'.sent i = if i ∈ is then e.sent i ++ submitted (e.nodes i) sql else e.sent i := by
  induction is generalizing e with
  | nil => exact ⟨e, rfl, fun i => rfl⟩
  | cons i is ih =>
    obtain ⟨hi, his⟩ := List.nodup_cons.mp hnodup
    obtain ⟨mid, hround, hnodes, hsent⟩ : ∃ mid, nodeRound format e i = some mid ∧
        (∀ j ≠ i, mid.nodes j = e.nodes j) ∧
        mid.sent = Function.update e.sent i (e.sent i ++ submitted (e.nodes i) sql) := by
      refine ⟨_, by rw [nodeRound, executeQuery, h]; rfl, fun j hj => ?_, rfl⟩
      simp [hj]
    obtain ⟨e', hloop, hrest⟩ := ih his mid
    refine ⟨e', by rw [List.foldlM_cons, hround]; exact hloop, fun j => ?_⟩
    rw [hrest j, hsent]
    by_cases hj : j = i
    · subst hj
      simp [hi]
    · simp [hj, hnodes j hj]

/-- What `execute_query_all_nodes` submits. -/
theorem executeQueryAllNodes_sent (ping : Fin N → Bool) (opened nodes : Fin N → Option Mysql)
    {format sql : Bytes} (h : message format = some sql) :
    ∃ e, executeQueryAllNodes ping opened nodes format = some e ∧
      ∀ i, e.sent i = submitted (connect ping opened nodes i) sql := by
  obtain ⟨e, hloop, hsent⟩ := foldlM_nodeRound h (List.nodup_finRange N)
    ⟨0, [], connect ping opened nodes, fun _ => []⟩
  refine ⟨_, by rw [executeQueryAllNodes, hloop]; rfl, fun i => ?_⟩
  show e.sent i = _
  rw [hsent i, if_pos (List.mem_finRange i)]
  rfl

end Nodes

/-- **`execute_query_all_nodes`.** It submits the text as it is exactly when the text is
    plain. -/
theorem executeQueryAllNodes_verbatim_iff (sql : SqlString) :
    AllNodesVerbatim sql ↔ Plain sql := by
  rw [plain_iff]
  refine ⟨fun h => ?_, fun h N ping opened nodes => executeQueryAllNodes_sent ping opened nodes h⟩
  -- one node is enough
  obtain ⟨e, he, hsent⟩ := h 1 (fun _ => true) (fun _ => some willing) fun _ => some willing
  cases htext : message sql.text with
  | none =>
    have hround : ∀ e : AllNodesEnd 1, nodeRound sql.text e 0 = none := fun e => by
      rw [nodeRound, executeQuery, htext]
      rfl
    have hnone : executeQueryAllNodes (fun _ : Fin 1 => true) (fun _ => some willing)
        (fun _ => some willing) sql.text = none := by
      simp [executeQueryAllNodes, List.finRange_succ, hround]
    rw [hnone] at he
    cases he
  | some text =>
    obtain ⟨e', he', hsent'⟩ := executeQueryAllNodes_sent (fun _ : Fin 1 => true)
      (fun _ => some willing) (fun _ => some willing) htext
    obtain rfl : e = e' := Option.some.inj (he.symm.trans he')
    have heq : [text] = [sql.text] := (hsent' 0).symm.trans (hsent 0)
    rw [List.singleton_inj.mp heq]

/-! ### Files of queries -/

/-- The two files of one round of `fwf`, whose queries should pass and be denied. -/
structure RuleFiles where
  pass : Option Bytes
  deny : Option Bytes

/-- One of the two loops, with the file it reads and what it counts. -/
def ruleLoop (elapsedTime : Bytes → Bytes) (counted : Outcome → Bool) (outcome : ℕ → Outcome)
    (file : Option Bytes) (t : TestConnections) (run : QueryRun) :
    Option (TestConnections × QueryRun) :=
  match file with
  | some file => (queryLoop counted outcome file run).map fun run => (t, run)
  | none =>
    let message := ascii "Error opening query file\n"
    some (report elapsedTime t 1 message message, run)

/-- The queries of one round of `fwf`: `local_result` counts the queries of the first file that
    fail and those of the second that are not denied. -/
def ruleQueries (elapsedTime : Bytes → Bytes) (t : TestConnections) (files : RuleFiles)
    (outcome : ℕ → Outcome) : Option (TestConnections × QueryRun) := do
  let (t, run) ← ruleLoop elapsedTime (fun o => o.rc ≠ 0) outcome files.pass t ⟨0, []⟩
  ruleLoop elapsedTime (fun o => o.errno ≠ accessDenied) outcome files.deny t run

/-- The lines of a file that are passed on: those of more than one byte. -/
def fileLines (file : Bytes) : List Bytes :=
  (Fgets.lines nl file).filter fun line => 1 < line.length

/-- `read_and_execute_queries` submits the lines of the file, whatever the answers are. -/
def FileVerbatim (file : Bytes) : Prop :=
  ∀ elapsedTime t filename expected outcome, ∃ t' run,
    readAndExecuteQueries elapsedTime t filename (some file) expected outcome = some (t', run) ∧
      run.sent = fileLines file

/-- A round of `fwf` submits the lines of the first file and then those of the second. -/
def RuleFilesVerbatim (pass deny : Bytes) : Prop :=
  ∀ elapsedTime t outcome, ∃ t' run,
    ruleQueries elapsedTime t ⟨some pass, some deny⟩ outcome = some (t', run) ∧
      run.sent = fileLines pass ++ fileLines deny

/-- Every line of the file that is passed on fits the buffer and holds neither a percent sign
    nor a NUL. -/
def PlainLines (file : Bytes) : Prop :=
  ∀ line ∈ fileLines file, percent ∉ line ∧ 0 ∉ line ∧ line.length ≤ 4095

/-- The buffer holds every line of a file when it holds those that are passed on. -/
theorem filePieces_eq_lines {file : Bytes} (h : ∀ line ∈ fileLines file, line.length ≤ 4095) :
    filePieces file = Fgets.lines nl file := by
  apply Fgets.pieces_eq_lines (by decide) (Nat.le_refl _)
  intro line hline
  by_cases hlong : 1 < line.length
  · exact h line (List.mem_filter.mpr ⟨hline, by simpa using hlong⟩)
  · omega

/-- Cut at its first NUL, a line of at most one byte has at most one. -/
theorem queries_eq_map {file : Bytes} (h : filePieces file = Fgets.lines nl file) :
    queries file = ((Fgets.lines nl file).filter fun line => 1 < (cut line).length).map cut := by
  rw [queries, h, List.filter_map]
  rfl

/-- Without a NUL in a text, cutting it does nothing. -/
theorem cut_eq_self_iff {s : Bytes} : cut s = s ↔ 0 ∉ s := by
  refine ⟨fun h hmem => ?_, cut_of_not_mem⟩
  rw [← h] at hmem
  simpa using List.mem_takeWhile_imp hmem

theorem length_cut_le (s : Bytes) : (cut s).length ≤ s.length :=
  (List.takeWhile_prefix _).length_le

/-- **The texts of a file.** They are its lines exactly when the file is plain. -/
theorem texts_eq_fileLines_iff (file : Bytes) :
    (queries file).mapM message = some (fileLines file) ↔ PlainLines file := by
  constructor
  · intro h
    have hall := Settled.mapM_eq_some_iff.mp h
    -- a text is no longer than what the buffer holds
    have hfits : ∀ line ∈ fileLines file, line.length ≤ 4095 := by
      intro line hline
      obtain ⟨sql, hsql, htext⟩ := Settled.exists_of_mem_answers h hline
      exact (length_message htext).trans (length_of_mem_queries hsql)
    rw [queries_eq_map (filePieces_eq_lines hfits)] at hall
    -- as many queries as lines that are passed on, so they come from the same lines
    have hsub : ((Fgets.lines nl file).filter fun line => 1 < (cut line).length).Sublist
        (fileLines file) := by
      apply List.monotone_filter_right
      intro line hline
      simp only [decide_eq_true_eq] at hline ⊢
      exact hline.trans_le (length_cut_le line)
    have hsame := hsub.eq_of_length (by simpa using hall.length_eq)
    rw [hsame, List.forall₂_map_left_iff, List.forall₂_same] at hall
    intro line hline
    have htext := hall line hline
    have hcut : cut line = line := by
      apply (List.takeWhile_prefix _).eq_of_length
      apply Nat.le_antisymm (length_cut_le line)
      exact (length_message htext)
    rw [hcut] at htext
    exact ⟨(message_eq_self_iff.mp htext).1, cut_eq_self_iff.mp hcut, hfits line hline⟩
  · intro h
    have hcut : ∀ line ∈ fileLines file, cut line = line := fun line hline =>
      cut_of_not_mem (h line hline).2.1
    have hsame : ((Fgets.lines nl file).filter fun line => 1 < (cut line).length)
        = fileLines file := by
      apply List.filter_congr
      intro line hline
      by_cases hlong : 1 < line.length
      · rw [hcut line (List.mem_filter.mpr ⟨hline, by simpa using hlong⟩)]
      · have hle := length_cut_le line
        rw [decide_eq_false hlong, decide_eq_false (by omega)]
    rw [queries_eq_map (filePieces_eq_lines fun line hline => (h line hline).2.2), hsame,
      Settled.mapM_eq_some_iff, List.forall₂_map_left_iff, List.forall₂_same]
    intro line hline
    obtain ⟨hpercent, -, hfits⟩ := h line hline
    rw [hcut line hline, message_eq_self_iff]
    exact ⟨hpercent, by omega⟩

/-- When the buffer holds the lines, no more queries are seen than lines are passed on. -/
theorem length_queries_le {file : Bytes} (h : ∀ line ∈ fileLines file, line.length ≤ 4095) :
    (queries file).length ≤ (fileLines file).length := by
  rw [queries_eq_map (filePieces_eq_lines h), List.length_map]
  apply List.Sublist.length_le
  apply List.monotone_filter_right
  intro line hline
  simp only [decide_eq_true_eq] at hline ⊢
  exact hline.trans_le (length_cut_le line)

/-- No text is longer than what the buffer holds. -/
theorem length_of_mem_texts {file : Bytes} {texts : List Bytes}
    (h : (queries file).mapM message = some texts) {text : Bytes} (htext : text ∈ texts) :
    text.length ≤ 4095 := by
  obtain ⟨sql, hsql, hmessage⟩ := Settled.exists_of_mem_answers h htext
  exact (length_message hmessage).trans (length_of_mem_queries hsql)

theorem length_texts {file : Bytes} {texts : List Bytes}
    (h : (queries file).mapM message = some texts) : texts.length = (queries file).length :=
  (Settled.mapM_eq_some_iff.mp h).length_eq.symm

/-- Where every answer is counted, the count is the number of queries. -/
theorem countP_answers (counted : Outcome → Bool) (o : Outcome) (h : counted o = true)
    (sent number : ℕ) : (answers (fun _ => o) sent number).countP counted = number := by
  rw [List.countP_eq_length.mpr]
  · simp [answers]
  · intro o' ho'
    obtain ⟨_, -, rfl⟩ := List.mem_map.mp ho'
    exact h

theorem countP_answers_le (counted : Outcome → Bool) (outcome : ℕ → Outcome)
    (sent number : ℕ) : (answers outcome sent number).countP counted ≤ number := by
  simpa [answers] using List.countP_le_length (p := counted) (l := answers outcome sent number)

/-- A loop over a file whose queries can be made and counted goes through. -/
theorem queryLoop_of_texts (counted : Outcome → Bool) (outcome : ℕ → Outcome) {file : Bytes}
    {texts : List Bytes} (htexts : (queries file).mapM message = some texts) (run : QueryRun)
    (hmax : run.localResult + texts.length ≤ intMax) :
    ∃ run', queryLoop counted outcome file run = some run' ∧ run'.sent = run.sent ++ texts ∧
      run'.localResult ≤ run.localResult + texts.length := by
  have hcount := countP_answers_le counted outcome run.sent.length (queries file).length
  rw [length_texts htexts] at hmax ⊢
  exact ⟨_, (queryLoop_eq_some_iff run (by omega)).mpr ⟨texts, htexts, by omega, rfl⟩, rfl,
    Nat.add_le_add_left hcount _⟩

/-- A loop that goes through although every answer is counted. -/
theorem texts_of_queryLoop {counted : Outcome → Bool} {o : Outcome} (ho : counted o = true)
    {file : Bytes} {run run' : QueryRun} (hrun : run.localResult ≤ intMax)
    (h : queryLoop counted (fun _ => o) file run = some run') :
    ∃ texts, (queries file).mapM message = some texts ∧ run'.sent = run.sent ++ texts ∧
      run'.localResult = run.localResult + texts.length ∧ run'.localResult ≤ intMax := by
  obtain ⟨texts, htexts, hmax, rfl⟩ := (queryLoop_eq_some_iff run hrun).mp h
  rw [countP_answers _ _ ho, ← length_texts htexts] at *
  exact ⟨texts, htexts, rfl, rfl, hmax⟩

/-- **Files of queries.** `read_and_execute_queries` submits the lines of a file exactly when
    the file is plain and its queries can be counted. -/
theorem readAndExecuteQueries_verbatim_iff (file : Bytes) :
    FileVerbatim file ↔ PlainLines file ∧ (fileLines file).length ≤ intMax := by
  rw [← texts_eq_fileLines_iff]
  constructor
  · intro h
    -- every answer is counted
    obtain ⟨t', run, hrun, hsent⟩ := h id ⟨0, []⟩ [] 1 fun _ => .accepted
    obtain ⟨run', hloop, hpair⟩ := Option.map_eq_some_iff.mp hrun
    obtain ⟨texts, htexts, hsent', hcount, hmax⟩ := texts_of_queryLoop rfl (Nat.zero_le _) hloop
    cases hpair
    obtain rfl : texts = fileLines file := hsent'.symm.trans hsent
    rw [hcount, Nat.zero_add] at hmax
    exact ⟨htexts, hmax⟩
  · rintro ⟨htexts, hmax⟩ elapsedTime t filename expected outcome
    obtain ⟨run, hloop, hsent, -⟩ := queryLoop_of_texts
      (fun o => o.rc ≠ expected && (expected = 1 || o.errno = accessDenied)) outcome htexts
      ⟨0, []⟩ ((Nat.zero_add _).trans_le hmax)
    exact ⟨t, run, by rw [readAndExecuteQueries, executeQueries, hloop]; rfl, hsent⟩

/-- The loops of `fwf` submit the lines of their two files exactly when both are plain and their
    queries can be counted together. -/
theorem ruleQueries_verbatim_iff (pass deny : Bytes) :
    RuleFilesVerbatim pass deny ↔ (PlainLines pass ∧ PlainLines deny) ∧
      (fileLines pass).length + (fileLines deny).length ≤ intMax := by
  rw [← texts_eq_fileLines_iff, ← texts_eq_fileLines_iff]
  constructor
  · intro h
    obtain ⟨t', run, hrun, hsent⟩ := h id ⟨0, []⟩ fun _ => .rejected 1
    obtain ⟨⟨t₁, run₁⟩, hpass, hdeny⟩ := Option.bind_eq_some_iff.mp hrun
    obtain ⟨run₁', hloop₁, hpair₁⟩ := Option.map_eq_some_iff.mp hpass
    obtain ⟨run', hloop, hpair⟩ := Option.map_eq_some_iff.mp hdeny
    cases hpair₁
    cases hpair
    obtain ⟨texts₁, htexts₁, hsent₁, hcount₁, hmax₁⟩ :=
      texts_of_queryLoop (by decide) (Nat.zero_le _) hloop₁
    obtain ⟨texts₂, htexts₂, hsent₂, hcount₂, hmax₂⟩ :=
      texts_of_queryLoop (by decide) hmax₁ hloop
    have hall : texts₁ ++ texts₂ = fileLines pass ++ fileLines deny := by
      rw [← hsent, hsent₂, hsent₁]
      rfl
    -- no line is longer than a text, so neither file has more queries than lines
    have hfits : ∀ line ∈ fileLines pass ++ fileLines deny, line.length ≤ 4095 := by
      intro line hline
      rcases List.mem_append.mp (hall ▸ hline) with hmem | hmem
      · exact length_of_mem_texts htexts₁ hmem
      · exact length_of_mem_texts htexts₂ hmem
    have hle₁ := length_queries_le fun line hline => hfits line (List.mem_append_left _ hline)
    have hle₂ := length_queries_le fun line hline => hfits line (List.mem_append_right _ hline)
    have hlength := congrArg List.length hall
    rw [← length_texts htexts₁] at hle₁
    rw [← length_texts htexts₂] at hle₂
    rw [List.length_append, List.length_append] at hlength
    obtain ⟨rfl, rfl⟩ := List.append_inj hall (by omega)
    exact ⟨⟨htexts₁, htexts₂⟩, by omega⟩
  · rintro ⟨⟨htexts₁, htexts₂⟩, hmax⟩ elapsedTime t outcome
    obtain ⟨run₁, hloop₁, hsent₁, hcount₁⟩ := queryLoop_of_texts
      (fun o => o.rc ≠ 0) outcome htexts₁ ⟨0, []⟩ (by simp only; omega)
    obtain ⟨run₂, hloop₂, hsent₂, -⟩ := queryLoop_of_texts
      (fun o => o.errno ≠ accessDenied) outcome htexts₂ run₁ (by simp only at hcount₁; omega)
    refine ⟨t, run₂, ?_, by rw [hsent₂, hsent₁]; rfl⟩
    simp only [ruleQueries, ruleLoop, hloop₁, Option.map_some, Option.bind_eq_bind,
      Option.bind_some, hloop₂]

/-- **Verbatim.** The helpers submit a text as it is exactly when there is no percent sign in it
    and its length is an `int` with one to spare; the loops over files submit the lines exactly
    when none of more than one byte has a percent sign or a NUL in it or is longer than the
    buffer, and the queries can be counted. -/
theorem query_text_verbatim_iff (sql : SqlString) (file pass deny : Bytes) :
    (TryAllVerbatim sql ↔ Plain sql) ∧ (AllNodesVerbatim sql ↔ Plain sql) ∧
      (FileVerbatim file ↔ PlainLines file ∧ (fileLines file).length ≤ intMax) ∧
      (RuleFilesVerbatim pass deny ↔ (PlainLines pass ∧ PlainLines deny) ∧
        (fileLines pass).length + (fileLines deny).length ≤ intMax) :=
  ⟨tryQueryAll_verbatim_iff sql, executeQueryAllNodes_verbatim_iff sql,
    readAndExecuteQueries_verbatim_iff file, ruleQueries_verbatim_iff pass deny⟩

/-- A query with a pattern. -/
def examplePattern : Bytes := ascii "select * from t1 where name like 'a%d'"

/-- A query with a pattern is not submitted as it is, by any of the helpers and loops. -/
theorem pattern_not_verbatim :
    ¬ TryAllVerbatim ⟨examplePattern, by decide +kernel⟩ ∧
      ¬ AllNodesVerbatim ⟨examplePattern, by decide +kernel⟩ ∧
      ¬ FileVerbatim examplePattern ∧ ¬ RuleFilesVerbatim examplePattern [] := by
  have hmem : percent ∈ examplePattern := by decide +kernel
  have hplain : ¬ Plain ⟨examplePattern, by decide +kernel⟩ := fun h => h.1 hmem
  have hlines : ¬ PlainLines examplePattern := by
    intro h
    have hline : examplePattern ∈ fileLines examplePattern := by decide +kernel
    exact (h _ hline).1 hmem
  refine ⟨?_, ?_, ?_, ?_⟩
  · rw [tryQueryAll_verbatim_iff]
    exact hplain
  · rw [executeQueryAllNodes_verbatim_iff]
    exact hplain
  · rw [readAndExecuteQueries_verbatim_iff]
    exact fun h => hlines h.1
  · rw [ruleQueries_verbatim_iff]
    exact fun h => hlines h.1.1

end MaxScaleSystemTest.Sql.Verbatim
