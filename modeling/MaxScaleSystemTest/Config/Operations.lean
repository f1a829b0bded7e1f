import MaxScaleSystemTest.Lib.Runs
import Mathlib.Data.Finset.Sort
import Mathlib.Data.String.Basic

namespace MaxScaleSystemTest.Config

/-!
# Servers and monitors created at run time

`Config` sends `maxadmin` commands to MaxScale and keeps in `created_servers_` and
`created_monitors_` what it believes to be there.  It does not look at the exit status of a
command.

* `MaxScale`, `MaxScale.Documented` — MaxScale is not part of the repository: what a command
  returns and does is left open, up to what `maxadmin` documents;
* `sshMaxscale` — one command;
* `Op.run` — the operations of `Config`.
-/

/-! ### MaxScale -/

/-- The services of the configuration file, in the order in which `add_server` names them. -/
def services : List String :=
  ["rwsplit-service", "read-connection-router-master", "read-connection-router-slave"]

/-- The `maxadmin` commands, with what they name. -/
inductive Command where
  | createServer (num : ℤ) (IP : String) (port : ℤ)
  | destroyServer (num : ℤ)
  | addServer (num : ℤ) (object : String)
  | removeServer (num : ℤ) (object : String)
  | createMonitor (name module : String)
  | alterMonitor (name key value : String)
  | restartMonitor (name : String)
  | destroyMonitor (name : String)
  deriving DecidableEq

/-- The command creates a server. -/
def Command.createsServer : Command → Bool
  | .createServer _ _ _ => true
  | _ => false

/-- A MaxScale: whether a command returns 0 and the state behind it, and what can be asked of a
    state, the servers, the monitors, and which server is linked to which of the services and
    monitors. -/
structure MaxScale (State : Type*) where
  exec : State → Command → Bool × State
  servers : State → Finset ℤ
  monitors : State → Finset String
  links : State → Finset (ℤ × String)

section MaxScale

variable {State : Type*} (M : MaxScale State)

/-- The two states have the same servers and monitors. -/
structure MaxScale.SameObjects (s s' : State) : Prop where
  servers : M.servers s' = M.servers s
  monitors : M.monitors s' = M.monitors s

/-- What a command that returns 0 has done. -/
def MaxScale.Effect (s s' : State) : Command → Prop
  | .createServer num _ _ =>
    M.servers s' = insert num (M.servers s) ∧ M.monitors s' = M.monitors s ∧
      M.links s' = M.links s
  | .destroyServer num =>
    M.servers s' = (M.servers s).erase num ∧ M.monitors s' = M.monitors s
  | .addServer num object => M.SameObjects s s' ∧ M.links s' = insert (num, object) (M.links s)
  | .removeServer _ _ => M.SameObjects s s'
  | .createMonitor name _ =>
    M.servers s' = M.servers s ∧ M.monitors s' = insert name (M.monitors s)
  | .alterMonitor _ _ _ => M.SameObjects s s'
  | .restartMonitor _ => M.SameObjects s s'
  | .destroyMonitor name =>
    M.servers s' = M.servers s ∧ M.monitors s' = (M.monitors s).erase name

/-- What is relied on: a command that returns 0 has done what its name says, and one that does
    not has left the servers, the monitors and the links as they were. -/
structure MaxScale.Documented : Prop where
  succeeds : ∀ s c, (M.exec s c).1 = true → M.Effect s (M.exec s c).2 c
  failsObjects : ∀ s c, (M.exec s c).1 = false → M.SameObjects s (M.exec s c).2
  failsLinks : ∀ s c, (M.exec s c).1 = false → M.links (M.exec s c).2 = M.links s

end MaxScale

/-! ### The object -/

/-- The fields of the parent that `Config` reads. -/
structure TestConnections where
  N : ℤ
  IP : ℤ → String
  port : ℤ → ℤ
  maxscaleUser : String
  maxscalePassword : String

/-- The object, MaxScale, and the commands so far, each with whether it has returned 0. -/
structure World (State : Type*) where
  createdServers : Finset ℤ
  createdMonitors : Finset String
  maxscale : State
  log : List (Command × Bool)
  deriving DecidableEq

variable {State : Type*}

/-- A new object, at a MaxScale in this state. -/
def World.start (s : State) : World State := ⟨∅, ∅, s, []⟩

variable (t : TestConnections) (M : MaxScale State)

/-- `ssh_maxscale` with a `maxadmin` command. -/
def sshMaxscale (w : World State) (c : Command) : World State :=
  { w with maxscale := (M.exec w.maxscale c).2, log := w.log ++ [(c, (M.exec w.maxscale c).1)] }

/-- `add_server`. -/
def addServer (w : World State) (num : ℤ) : World State :=
  let w := sshMaxscale M w (.addServer num "rwsplit-service")
  let w := sshMaxscale M w (.addServer num "read-connection-router-master")
  let w := sshMaxscale M w (.addServer num "read-connection-router-slave")
  (w.createdMonitors.sort (· ≤ ·)).foldl (fun w a => sshMaxscale M w (.addServer num a)) w

/-- `remove_server`. -/
def removeServer (w : World State) (num : ℤ) : World State :=
  let w := sshMaxscale M w (.removeServer num "rwsplit-service")
  let w := sshMaxscale M w (.removeServer num "read-connection-router-master")
  let w := sshMaxscale M w (.removeServer num "read-connection-router-slave")
  (w.createdMonitors.sort (· ≤ ·)).foldl (fun w a => sshMaxscale M w (.removeServer num a)) w

/-- `destroy_server`: the status of the command is not looked at. -/
def destroyServer (w : World State) (num : ℤ) : World State :=
  let w := sshMaxscale M w (.destroyServer num)
  { w with createdServers := w.createdServers.erase num }

/-- `create_server`: nor is it here. -/
def createServer (w : World State) (num : ℤ) : World State :=
  let w := sshMaxscale M w (.createServer num (t.IP num) (t.port num))
  { w with createdServers := insert num w.createdServers }

/-- `alter_monitor`. -/
def alterMonitor (w : World State) (name key value : String) : World State :=
  sshMaxscale M w (.alterMonitor name key value)

/-- `create_monitor`. -/
def createMonitor (w : World State) (name module : String) (interval : ℤ) : World State :=
  let w := sshMaxscale M w (.createMonitor name module)
  let w := alterMonitor M w name "monitor_interval" (toString interval)
  let w := alterMonitor M w name "user" t.maxscaleUser
  let w := alterMonitor M w name "password" t.maxscalePassword
  let w := sshMaxscale M w (.restartMonitor name)
  { w with createdMonitors := insert name w.createdMonitors }

/-- `destroy_monitor`. -/
def destroyMonitor (w : World State) (name : String) : World State :=
  let w := sshMaxscale M w (.destroyMonitor name)
  { w with createdMonitors := w.createdMonitors.erase name }

/-- The numbers of the loop over the backends. -/
def backends (N : ℤ) : List ℤ := (List.range N.toNat).map fun i : ℕ => (i : ℤ)

/-- The body of the loop of `reset`. -/
def resetServer (w : World State) (i : ℤ) : World State :=
  if i ∉ w.createdServers then addServer M (createServer t M w i) i else w

/-- `reset`. -/
def reset (w : World State) : World State := (backends t.N).foldl (resetServer t M) w

/-- The operations on a `Config` object. -/
inductive Op where
  | createServer (num : ℤ)
  | destroyServer (num : ℤ)
  | addServer (num : ℤ)
  | removeServer (num : ℤ)
  | createMonitor (name module : String) (interval : ℤ)
  | destroyMonitor (name : String)
  | reset
  deriving DecidableEq

/-- One operation. -/
def Op.run (w : World State) : Op → World State
  | .createServer num => Config.createServer t M w num
  | .destroyServer num => Config.destroyServer M w num
  | .addServer num => Config.addServer M w num
  | .removeServer num => Config.removeServer M w num
  | .createMonitor name module interval => Config.createMonitor t M w name module interval
  | .destroyMonitor name => Config.destroyMonitor M w name
  | .reset => Config.reset t M w

/-! ### One command -/

/-- Whether a command returns 0 in this state. -/
def Returns (w : World State) (c : Command) : Prop := (M.exec w.maxscale c).1 = true

instance (w : World State) (c : Command) : Decidable (Returns M w c) :=
  inferInstanceAs (Decidable (_ = true))

@[simp] theorem sshMaxscale_createdServers (w : World State) (c : Command) :
    (sshMaxscale M w c).createdServers = w.createdServers := rfl

@[simp] theorem sshMaxscale_createdMonitors (w : World State) (c : Command) :
    (sshMaxscale M w c).createdMonitors = w.createdMonitors := rfl

theorem sshMaxscale_extends (w : World State) (c : Command) :
    w.log <+: (sshMaxscale M w c).log := List.prefix_append _ _

/-- The commands of `add_server`, one after the other. -/
abbrev addAll (num : ℤ) (objects : List String) (w : World State) : World State :=
  objects.foldl (fun w object => sshMaxscale M w (.addServer num object)) w

/-- The objects that `add_server` and `remove_server` name. -/
def World.objects (w : World State) : List String := services ++ w.createdMonitors.sort (· ≤ ·)

theorem mem_objects (w : World State) (object : String) :
    object ∈ w.objects ↔ object ∈ services ∨ object ∈ w.createdMonitors := by
  rw [World.objects, List.mem_append, Finset.mem_sort]

/-- `add_server` names every service and then every created monitor. -/
theorem addServer_eq (w : World State) (num : ℤ) :
    addServer M w num = addAll M num w.objects w := by
  rw [addAll, World.objects, List.foldl_append]
  simp [addServer, services]

theorem removeServer_eq (w : World State) (num : ℤ) :
    removeServer M w num =
      w.objects.foldl (fun w object => sshMaxscale M w (.removeServer num object)) w := by
  rw [World.objects, List.foldl_append]
  simp [removeServer, services]

section Documented

variable {M} (hM : M.Documented)

include hM

/-- What a command that returns 0 does, and what another one leaves. -/
theorem sshMaxscale_cases (w : World State) (c : Command) :
    (Returns M w c ∧ M.Effect w.maxscale (sshMaxscale M w c).maxscale c) ∨
      (¬ Returns M w c ∧ M.SameObjects w.maxscale (sshMaxscale M w c).maxscale ∧
        M.links (sshMaxscale M w c).maxscale = M.links w.maxscale) := by
  by_cases h : Returns M w c
  · exact .inl ⟨h, hM.succeeds w.maxscale c h⟩
  · have hfalse : (M.exec w.maxscale c).1 = false := Bool.eq_false_of_not_eq_true h
    exact .inr ⟨h, hM.failsObjects w.maxscale c hfalse, hM.failsLinks w.maxscale c hfalse⟩

/-! ### Commands that create and destroy nothing -/

/-- The commands that leave the servers and monitors of MaxScale as they are. -/
def Command.Quiet : Command → Prop
  | .addServer _ _ | .removeServer _ _ | .alterMonitor _ _ _ | .restartMonitor _ => True
  | _ => False

/-- The same servers and monitors, for the object and for MaxScale. -/
structure Frame (M : MaxScale State) (w w' : World State) : Prop where
  createdServers : w'.createdServers = w.createdServers
  createdMonitors : w'.createdMonitors = w.createdMonitors
  objects : M.SameObjects w.maxscale w'.maxscale
  log : w.log <+: w'.log

omit hM in
theorem Frame.refl (w : World State) : Frame M w w := ⟨rfl, rfl, ⟨rfl, rfl⟩, List.prefix_rfl⟩

omit hM in
theorem Frame.trans {w w' w'' : World State} (h : Frame M w w') (h' : Frame M w' w'') :
    Frame M w w'' where
  createdServers := h'.createdServers.trans h.createdServers
  createdMonitors := h'.createdMonitors.trans h.createdMonitors
  objects := ⟨h'.objects.servers.trans h.objects.servers,
    h'.objects.monitors.trans h.objects.monitors⟩
  log := h.log.trans h'.log

theorem frame_sshMaxscale (w : World State) {c : Command} (hc : c.Quiet) :
    Frame M w (sshMaxscale M w c) := by
  refine ⟨rfl, rfl, ?_, sshMaxscale_extends M w c⟩
  obtain ⟨-, heffect⟩ | ⟨-, hsame, -⟩ := sshMaxscale_cases hM w c
  · cases c with
    | addServer => exact heffect.1
    | removeServer | alterMonitor | restartMonitor => exact heffect
    | createServer | destroyServer | createMonitor | destroyMonitor => exact hc.elim
  · exact hsame

theorem frame_foldl {α : Type*} (c : α → Command) (hc : ∀ a, (c a).Quiet) (as : List α)
    (w : World State) : Frame M w (as.foldl (fun w a => sshMaxscale M w (c a)) w) := by
  induction as generalizing w with
  | nil => exact Frame.refl w
  | cons a as ih => exact (frame_sshMaxscale hM w (hc a)).trans (ih _)

theorem frame_addAll (num : ℤ) (objects : List String) (w : World State) :
    Frame M w (addAll M num objects w) :=
  frame_foldl hM (Command.addServer num) (fun _ => trivial) objects w

theorem frame_addServer (w : World State) (num : ℤ) : Frame M w (addServer M w num) := by
  rw [addServer_eq]
  exact frame_addAll hM num w.objects w

theorem frame_removeServer (w : World State) (num : ℤ) : Frame M w (removeServer M w num) := by
  rw [removeServer_eq]
  exact frame_foldl hM (Command.removeServer num) (fun _ => trivial) w.objects w

/-- The commands after the first one of `create_monitor` neither create nor destroy. -/
theorem createMonitor_frame (w : World State) (name module : String) (interval : ℤ) :
    ∃ w', Frame M (sshMaxscale M w (.createMonitor name module)) w' ∧
      createMonitor t M w name module interval =
        { w' with createdMonitors := insert name w'.createdMonitors } := by
  have halter : ∀ w key value, Frame M w (alterMonitor M w name key value) :=
    fun w _ _ => frame_sshMaxscale hM w trivial
  have hrestart : ∀ w, Frame M w (sshMaxscale M w (.restartMonitor name)) :=
    fun w => frame_sshMaxscale hM w trivial
  exact ⟨_, (((halter _ _ _).trans (halter _ _ _)).trans (halter _ _ _)).trans (hrestart _), rfl⟩

/-! ### What the operations do to the servers and monitors -/

/-- The monitors and the links stay. -/
theorem createServer_others (w : World State) (num : ℤ) :
    M.monitors (createServer t M w num).maxscale = M.monitors w.maxscale ∧
      M.links (createServer t M w num).maxscale = M.links w.maxscale := by
  obtain ⟨-, -, hmonitors, hlinks⟩ | ⟨-, hsame, hlinks⟩ :=
    sshMaxscale_cases hM w (.createServer num (t.IP num) (t.port num))
  · exact ⟨hmonitors, hlinks⟩
  · exact ⟨hsame.monitors, hlinks⟩

theorem createServer_servers (w : World State) (num : ℤ) :
    M.servers (createServer t M w num).maxscale =
      if Returns M w (.createServer num (t.IP num) (t.port num)) then
        insert num (M.servers w.maxscale)
      else M.servers w.maxscale := by
  obtain ⟨hreturns, hservers, -⟩ | ⟨hfails, hsame, -⟩ :=
    sshMaxscale_cases hM w (.createServer num (t.IP num) (t.port num))
  · rw [if_pos hreturns]
    exact hservers
  · rw [if_neg hfails]
    exact hsame.servers

theorem destroyServer_monitors (w : World State) (num : ℤ) :
    M.monitors (destroyServer M w num).maxscale = M.monitors w.maxscale := by
  obtain ⟨-, -, hmonitors⟩ | ⟨-, hsame, -⟩ := sshMaxscale_cases hM w (.destroyServer num)
  · exact hmonitors
  · exact hsame.monitors

theorem destroyServer_servers (w : World State) (num : ℤ) :
    M.servers (destroyServer M w num).maxscale =
      if Returns M w (.destroyServer num) then (M.servers w.maxscale).erase num
      else M.servers w.maxscale := by
  obtain ⟨hreturns, hservers, -⟩ | ⟨hfails, hsame, -⟩ :=
    sshMaxscale_cases hM w (.destroyServer num)
  · rw [if_pos hreturns]
    exact hservers
  · rw [if_neg hfails]
    exact hsame.servers

theorem destroyMonitor_servers (w : World State) (name : String) :
    M.servers (destroyMonitor M w name).maxscale = M.servers w.maxscale := by
  obtain ⟨-, hservers, -⟩ | ⟨-, hsame, -⟩ := sshMaxscale_cases hM w (.destroyMonitor name)
  · exact hservers
  · exact hsame.servers

theorem destroyMonitor_monitors (w : World State) (name : String) :
    M.monitors (destroyMonitor M w name).maxscale =
      if Returns M w (.destroyMonitor name) then (M.monitors w.maxscale).erase name
      else M.monitors w.maxscale := by
  obtain ⟨hreturns, -, hmonitors⟩ | ⟨hfails, hsame, -⟩ :=
    sshMaxscale_cases hM w (.destroyMonitor name)
  · rw [if_pos hreturns]
    exact hmonitors
  · rw [if_neg hfails]
    exact hsame.monitors

theorem createMonitor_servers (w : World State) (name module : String) (interval : ℤ) :
    M.servers (createMonitor t M w name module interval).maxscale = M.servers w.maxscale := by
  obtain ⟨w', hframe, h⟩ := createMonitor_frame t hM w name module interval
  rw [h]
  show M.servers w'.maxscale = _
  rw [hframe.objects.servers]
  obtain ⟨-, hservers, -⟩ | ⟨-, hsame, -⟩ := sshMaxscale_cases hM w (.createMonitor name module)
  · exact hservers
  · exact hsame.servers

theorem createMonitor_monitors (w : World State) (name module : String) (interval : ℤ) :
    M.monitors (createMonitor t M w name module interval).maxscale =
      if Returns M w (.createMonitor name module) then insert name (M.monitors w.maxscale)
      else M.monitors w.maxscale := by
  obtain ⟨w', hframe, h⟩ := createMonitor_frame t hM w name module interval
  rw [h]
  show M.monitors w'.maxscale = _
  rw [hframe.objects.monitors]
  obtain ⟨hreturns, -, hmonitors⟩ | ⟨hfails, hsame, -⟩ :=
    sshMaxscale_cases hM w (.createMonitor name module)
  · rw [if_pos hreturns]
    exact hmonitors
  · rw [if_neg hfails]
    exact hsame.monitors

end Documented

/-! ### What the operations do to the object -/

@[simp] theorem createServer_createdServers (w : World State) (num : ℤ) :
    (createServer t M w num).createdServers = insert num w.createdServers := rfl

@[simp] theorem createServer_createdMonitors (w : World State) (num : ℤ) :
    (createServer t M w num).createdMonitors = w.createdMonitors := rfl

theorem createServer_extends (w : World State) (num : ℤ) :
    w.log <+: (createServer t M w num).log :=
  sshMaxscale_extends M w _

theorem createMonitor_created (w : World State) (name module : String) (interval : ℤ) :
    (createMonitor t M w name module interval).createdServers = w.createdServers ∧
      (createMonitor t M w name module interval).createdMonitors =
        insert name w.createdMonitors := ⟨rfl, rfl⟩

end MaxScaleSystemTest.Config
