import MaxScaleSystemTest.Config.Operations

namespace MaxScaleSystemTest.Config

open Runs

/-!
# `Config` as a mirror of MaxScale

The sets of the object are changed whether or not the command that should change MaxScale
succeeds, and `reset` leaves out the servers that are in the set already.

* `Mirrors` — the sets are what MaxScale has;
* `createServer_mirrors_iff` and the lemmas behind it — which operations keep them so;
* `foldl_addMissing_mirrors_iff`, `foldl_addMissing_linked` — what a `reset` does;
* `keepsMirror_iff` — which runs keep the mirror and complete every `reset`.
-/

variable {State : Type*} (t : TestConnections) (M : MaxScale State)

/-- The sets of the object are what MaxScale has. -/
def Mirrors (w : World State) : Prop :=
  w.createdServers = M.servers w.maxscale ∧ w.createdMonitors = M.monitors w.maxscale

instance (w : World State) : Decidable (Mirrors M w) := inferInstanceAs (Decidable (_ ∧ _))

/-- The server is linked to every service and to every created monitor. -/
def Linked (w : World State) (num : ℤ) : Prop :=
  (∀ service ∈ services, (num, service) ∈ M.links w.maxscale) ∧
    ∀ monitor ∈ w.createdMonitors, (num, monitor) ∈ M.links w.maxscale

instance (w : World State) (num : ℤ) : Decidable (Linked M w num) :=
  inferInstanceAs (Decidable (_ ∧ _))

/-- Every backend has a server in MaxScale, which is linked to everything. -/
def Complete (N : ℤ) (w : World State) : Prop :=
  ∀ i ∈ backends N, i ∈ M.servers w.maxscale ∧ Linked M w i

instance (N : ℤ) (w : World State) : Decidable (Complete M N w) :=
  inferInstanceAs (Decidable (∀ _ ∈ _, _))

/-- `P` holds of every command that is sent between two states. -/
def Between (P : Command × Bool → Prop) (w w' : World State) : Prop :=
  ∀ sent ∈ w'.log.drop w.log.length, P sent

/-- The commands sent between two states have all returned 0. -/
def Succeeded : World State → World State → Prop := Between fun sent => sent.2 = true

instance (w w' : World State) : Decidable (Succeeded w w') :=
  inferInstanceAs (Decidable (∀ _ ∈ _, _))

/-- Those that create a server have. -/
def CreatesSucceeded : World State → World State → Prop :=
  Between fun sent => sent.1.createsServer = true → sent.2 = true

/-- A `reset` whose commands succeed completes the configuration. -/
def ResetCompletes (w : World State) : Op → Prop
  | .reset => Succeeded w (reset t M w) → Complete M t.N (reset t M w)
  | _ => True

/-- In a run from a new object, the sets are always what MaxScale has, and every `reset`
    whose commands succeed completes the configuration. -/
def KeepsMirror (s : State) (ops : List Op) : Prop :=
  (∀ before, before <+: ops → Mirrors M (run (Op.run t M) (.start s) before)) ∧
    StepsHold (Op.run t M) (ResetCompletes t M) (.start s) ops

/-- The command that changes MaxScale along with the set does not fail, unless there is
    nothing to change.  No server that a `reset` finds missing fails to be created; and unless
    another one of its commands fails, the servers it leaves out are linked already. -/
def Good (w : World State) : Op → Prop
  | .createServer num =>
    num ∈ w.createdServers ∨ Returns M w (.createServer num (t.IP num) (t.port num))
  | .destroyServer num => num ∉ w.createdServers ∨ Returns M w (.destroyServer num)
  | .addServer _ | .removeServer _ => True
  | .createMonitor name module _ =>
    name ∈ w.createdMonitors ∨ Returns M w (.createMonitor name module)
  | .destroyMonitor name => name ∉ w.createdMonitors ∨ Returns M w (.destroyMonitor name)
  | .reset =>
    CreatesSucceeded w (reset t M w) ∧
      (Succeeded w (reset t M w) → ∀ i ∈ backends t.N, i ∈ w.createdServers → Linked M w i)

/-! ### Commands that succeed -/

section Between

variable {P : Command × Bool → Prop}

theorem between_refl (w : World State) : Between P w w := by
  simp [Between]

/-- The later state has the commands of the earlier one, and those since. -/
theorem between_trans_iff {w w' w'' : World State} (h : w.log <+: w'.log)
    (h' : w'.log <+: w''.log) : Between P w w'' ↔ Between P w w' ∧ Between P w' w'' := by
  obtain ⟨new, hnew⟩ := h
  obtain ⟨new', hnew'⟩ := h'
  simp only [Between, ← hnew', ← hnew, List.append_assoc, List.drop_left]
  rw [← List.append_assoc, List.drop_left]
  simp only [List.mem_append, or_imp, forall_and]

theorem between_sshMaxscale_iff (w : World State) (c : Command) :
    Between P w (sshMaxscale M w c) ↔ P (c, (M.exec w.maxscale c).1) := by
  simp [Between, sshMaxscale]

theorem addAll_extends (num : ℤ) (objects : List String) (w : World State) :
    w.log <+: (addAll M num objects w).log := by
  induction objects generalizing w with
  | nil => exact List.prefix_rfl
  | cons object objects ih => exact (sshMaxscale_extends M w _).trans (ih _)

/-- No command of `add_server` creates a server. -/
theorem createsSucceeded_addAll (num : ℤ) (objects : List String) (w : World State) :
    CreatesSucceeded w (addAll M num objects w) := by
  induction objects generalizing w with
  | nil => exact between_refl w
  | cons object objects ih =>
    refine (between_trans_iff (sshMaxscale_extends M w (.addServer num object))
      (addAll_extends M num objects _)).mpr ⟨?_, ih _⟩
    exact (between_sshMaxscale_iff M w _).mpr nofun

end Between

section Documented

variable {M} (hM : M.Documented)

include hM

/-! ### The sets -/

omit hM in
theorem Frame.mirrors_iff {w w' : World State} (h : Frame M w w') :
    Mirrors M w' ↔ Mirrors M w := by
  rw [Mirrors, Mirrors, h.createdServers, h.createdMonitors, h.objects.servers,
    h.objects.monitors]

theorem createServer_mirrors_iff {w : World State} (h : Mirrors M w) (num : ℤ) :
    Mirrors M (createServer t M w num) ↔
      num ∈ w.createdServers ∨ Returns M w (.createServer num (t.IP num) (t.port num)) := by
  rw [Mirrors, createServer_createdServers, createServer_createdMonitors,
    (createServer_others t hM w num).1, createServer_servers t hM, ← h.1, ← h.2]
  by_cases hreturns : Returns M w (.createServer num (t.IP num) (t.port num))
  · simp [hreturns]
  · simp [hreturns, Finset.insert_eq_self]

theorem destroyServer_mirrors_iff {w : World State} (h : Mirrors M w) (num : ℤ) :
    Mirrors M (destroyServer M w num) ↔
      num ∉ w.createdServers ∨ Returns M w (.destroyServer num) := by
  have hcreated : (destroyServer M w num).createdServers = w.createdServers.erase num := rfl
  have hmonitors : (destroyServer M w num).createdMonitors = w.createdMonitors := rfl
  rw [Mirrors, hcreated, hmonitors, destroyServer_monitors hM, destroyServer_servers hM, ← h.1,
    ← h.2]
  by_cases hreturns : Returns M w (.destroyServer num)
  · simp [hreturns]
  · simp [hreturns, Finset.erase_eq_self]

theorem createMonitor_mirrors_iff {w : World State} (h : Mirrors M w) (name module : String)
    (interval : ℤ) :
    Mirrors M (createMonitor t M w name module interval) ↔
      name ∈ w.createdMonitors ∨ Returns M w (.createMonitor name module) := by
  obtain ⟨hservers, hmonitors⟩ := createMonitor_created t M w name module interval
  rw [Mirrors, hservers, hmonitors, createMonitor_servers t hM, createMonitor_monitors t hM,
    ← h.1, ← h.2]
  by_cases hreturns : Returns M w (.createMonitor name module)
  · simp [hreturns]
  · simp [hreturns, Finset.insert_eq_self]

theorem destroyMonitor_mirrors_iff {w : World State} (h : Mirrors M w) (name : String) :
    Mirrors M (destroyMonitor M w name) ↔
      name ∉ w.createdMonitors ∨ Returns M w (.destroyMonitor name) := by
  have hcreated : (destroyMonitor M w name).createdServers = w.createdServers := rfl
  have hmonitors : (destroyMonitor M w name).createdMonitors = w.createdMonitors.erase name := rfl
  rw [Mirrors, hcreated, hmonitors, destroyMonitor_servers hM, destroyMonitor_monitors hM, ← h.1,
    ← h.2]
  by_cases hreturns : Returns M w (.destroyMonitor name)
  · simp [hreturns]
  · simp [hreturns, Finset.erase_eq_self]

/-! ### The links of `add_server` -/

/-- Links are added for this server only. -/
theorem links_ssh_add_other (w : World State) {num m : ℤ} (hm : m ≠ num) (object o : String) :
    (m, o) ∈ M.links (sshMaxscale M w (.addServer num object)).maxscale ↔
      (m, o) ∈ M.links w.maxscale := by
  obtain ⟨-, -, hlinks⟩ | ⟨-, -, hlinks⟩ := sshMaxscale_cases hM w (.addServer num object)
  · simp [hlinks, hm]
  · rw [hlinks]

theorem links_addAll_other {num m : ℤ} (hm : m ≠ num) (objects : List String) (w : World State)
    (o : String) :
    (m, o) ∈ M.links (addAll M num objects w).maxscale ↔ (m, o) ∈ M.links w.maxscale := by
  induction objects generalizing w with
  | nil => rfl
  | cons object objects ih => exact (ih _).trans (links_ssh_add_other hM w hm object o)

/-- Links that are there stay. -/
theorem links_ssh_add_mono (w : World State) (num : ℤ) (object : String) :
    M.links w.maxscale ⊆ M.links (sshMaxscale M w (.addServer num object)).maxscale := by
  obtain ⟨-, -, hlinks⟩ | ⟨-, -, hlinks⟩ := sshMaxscale_cases hM w (.addServer num object)
  · rw [hlinks]
    exact Finset.subset_insert _ _
  · rw [hlinks]

theorem links_addAll_mono (num : ℤ) (objects : List String) (w : World State) :
    M.links w.maxscale ⊆ M.links (addAll M num objects w).maxscale := by
  induction objects generalizing w with
  | nil => rfl
  | cons object objects ih => exact (links_ssh_add_mono hM w num object).trans (ih _)

/-- Commands that succeed link the server to their objects. -/
theorem links_addAll_of_succeeded {num : ℤ} (objects : List String) {w : World State}
    (h : Succeeded w (addAll M num objects w)) :
    ∀ o ∈ objects, (num, o) ∈ M.links (addAll M num objects w).maxscale := by
  induction objects generalizing w with
  | nil => exact fun _ => nofun
  | cons object objects ih =>
    obtain ⟨hfirst, hrest⟩ := (between_trans_iff (sshMaxscale_extends M w (.addServer num object))
      (addAll_extends M num objects _)).mp h
    rw [List.forall_mem_cons]
    refine ⟨?_, ih hrest⟩
    apply links_addAll_mono hM num objects
    obtain ⟨-, -, hlinks⟩ | ⟨hfails, -⟩ := sshMaxscale_cases hM w (.addServer num object)
    · rw [hlinks]
      exact Finset.mem_insert_self _ _
    · exact absurd ((between_sshMaxscale_iff M w _).mp hfirst) hfails

/-! ### The missing servers -/

/-- The backends that `reset` takes as missing. -/
def missing (N : ℤ) (w : World State) : List ℤ := (backends N).filter (· ∉ w.createdServers)

/-- What `reset` does for a missing server. -/
def addMissing (t : TestConnections) (M : MaxScale State) (w : World State) (i : ℤ) :
    World State := addServer M (createServer t M w i) i

omit hM in
theorem addMissing_eq (w : World State) (i : ℤ) :
    addMissing t M w i = addAll M i w.objects (createServer t M w i) := by
  rw [addMissing, addServer_eq, World.objects, World.objects, createServer_createdMonitors]

theorem frame_addMissing (w : World State) (i : ℤ) :
    Frame M (createServer t M w i) (addMissing t M w i) :=
  frame_addServer hM _ i

theorem addMissing_createdServers (w : World State) (i : ℤ) :
    (addMissing t M w i).createdServers = insert i w.createdServers := by
  rw [(frame_addMissing t hM w i).createdServers, createServer_createdServers]

theorem addMissing_createdMonitors (w : World State) (i : ℤ) :
    (addMissing t M w i).createdMonitors = w.createdMonitors := by
  rw [(frame_addMissing t hM w i).createdMonitors, createServer_createdMonitors]

/-- The servers that are missing otherwise are still missing. -/
theorem notMem_addMissing {w : World State} {i : ℤ} {is : List ℤ} (hi : i ∉ is)
    (his : ∀ j ∈ i :: is, j ∉ w.createdServers) :
    ∀ j ∈ is, j ∉ (addMissing t M w i).createdServers := by
  intro j hj
  have hne : j ≠ i := fun heq => hi (heq ▸ hj)
  simpa [addMissing_createdServers t hM, hne] using his j (List.mem_cons_of_mem i hj)

theorem addMissing_extends (w : World State) (i : ℤ) : w.log <+: (addMissing t M w i).log :=
  (createServer_extends t M w i).trans (frame_addMissing t hM w i).log

omit hM in
theorem nodup_backends (N : ℤ) : (backends N).Nodup :=
  List.Nodup.map (fun _ _ heq => Int.ofNat.inj heq) List.nodup_range

/-- The loop of `reset` passes over the servers that are not missing. -/
theorem reset_eq (w : World State) :
    reset t M w = (missing t.N w).foldl (addMissing t M) w := by
  have hloop : ∀ (is : List ℤ), is.Nodup → ∀ w : World State,
      is.foldl (resetServer t M) w =
        (is.filter (· ∉ w.createdServers)).foldl (addMissing t M) w := by
    intro is hnodup
    induction is with
    | nil => exact fun _ => rfl
    | cons i is ih =>
      obtain ⟨hi, hnodup⟩ := List.nodup_cons.mp hnodup
      intro w
      rw [List.foldl_cons, ih hnodup]
      by_cases hmem : i ∈ w.createdServers
      · rw [resetServer, if_neg (not_not.mpr hmem), List.filter_cons_of_neg (by simpa using hmem)]
      · -- the server is added to the set, but is not among the rest
        have hrest : is.filter (· ∉ (addMissing t M w i).createdServers) =
            is.filter (· ∉ w.createdServers) := by
          apply List.filter_congr
          intro j hj
          have hne : j ≠ i := fun heq => hi (heq ▸ hj)
          simp [addMissing_createdServers t hM, hne]
        rw [resetServer, if_pos hmem, List.filter_cons_of_pos (by simpa using hmem),
          List.foldl_cons, ← hrest]
        rfl
  exact hloop _ (nodup_backends t.N) w

/-! ### The loop over the missing servers -/

/-- MaxScale has no server that is not in the set, and the sets agree on the monitors. -/
def Behind (M : MaxScale State) (w : World State) : Prop :=
  M.servers w.maxscale ⊆ w.createdServers ∧ w.createdMonitors = M.monitors w.maxscale

omit hM in
theorem Mirrors.behind {w : World State} (h : Mirrors M w) : Behind M w :=
  ⟨h.1.symm.subset, h.2⟩

theorem addMissing_behind {w : World State} (h : Behind M w) (i : ℤ) :
    Behind M (addMissing t M w i) := by
  have hobjects := (frame_addMissing t hM w i).objects
  rw [Behind, addMissing_createdServers t hM, addMissing_createdMonitors t hM, hobjects.servers,
    hobjects.monitors, (createServer_others t hM w i).1, createServer_servers t hM]
  refine ⟨?_, h.2⟩
  split
  · exact Finset.insert_subset_insert i h.1
  · exact h.1.trans (Finset.subset_insert i _)

/-- Of the commands for a missing server one creates a server. -/
theorem addMissing_createsSucceeded_iff (w : World State) (i : ℤ) :
    CreatesSucceeded w (addMissing t M w i) ↔
      Returns M w (.createServer i (t.IP i) (t.port i)) := by
  have hadds : CreatesSucceeded (createServer t M w i) (addMissing t M w i) := by
    rw [addMissing_eq]
    exact createsSucceeded_addAll M i w.objects _
  have hsplit := between_trans_iff (P := fun sent => sent.1.createsServer = true → sent.2 = true)
    (createServer_extends t M w i) (frame_addMissing t hM w i).log
  have hcreate := between_sshMaxscale_iff (P := fun sent => sent.1.createsServer = true →
    sent.2 = true) M w (.createServer i (t.IP i) (t.port i))
  rw [CreatesSucceeded, hsplit]
  refine (and_iff_left hadds).trans (hcreate.trans ?_)
  exact ⟨fun h => h rfl, fun h _ => h⟩

/-- A missing server is in both sets afterwards when it is created; nothing makes up for a
    server that is in one of them only. -/
theorem addMissing_mirrors_iff {w : World State} (h : Behind M w) {i : ℤ}
    (hi : i ∉ w.createdServers) :
    Mirrors M (addMissing t M w i) ↔ Mirrors M w ∧ CreatesSucceeded w (addMissing t M w i) := by
  have hservers : i ∉ M.servers w.maxscale := fun hmem => hi (h.1 hmem)
  rw [addMissing_createsSucceeded_iff t hM, (frame_addMissing t hM w i).mirrors_iff, Mirrors,
    Mirrors, createServer_createdServers, createServer_createdMonitors,
    (createServer_others t hM w i).1, createServer_servers t hM]
  simp only [h.2, and_true]
  by_cases hreturns : Returns M w (.createServer i (t.IP i) (t.port i))
  · simp only [hreturns, if_true, and_true]
    constructor
    · intro heq
      rw [← Finset.erase_insert hi, heq, Finset.erase_insert hservers]
    · intro heq
      rw [heq]
  · simp only [hreturns, if_false, and_false, iff_false]
    intro heq
    exact hservers (heq ▸ Finset.mem_insert_self i _)

theorem foldl_addMissing_extends (is : List ℤ) (w : World State) :
    w.log <+: (is.foldl (addMissing t M) w).log := by
  induction is generalizing w with
  | nil => exact List.prefix_rfl
  | cons i is ih => exact (addMissing_extends t hM w i).trans (ih _)

/-- The sets mirror MaxScale after the loop when they have before and every missing server has
    been created. -/
theorem foldl_addMissing_mirrors_iff (is : List ℤ) (hnodup : is.Nodup) {w : World State}
    (h : Behind M w) (his : ∀ i ∈ is, i ∉ w.createdServers) :
    Mirrors M (is.foldl (addMissing t M) w) ↔
      Mirrors M w ∧ CreatesSucceeded w (is.foldl (addMissing t M) w) := by
  induction is generalizing w with
  | nil => exact (and_iff_left (between_refl w)).symm
  | cons i is ih =>
    obtain ⟨hi, hnodup⟩ := List.nodup_cons.mp hnodup
    have hsplit := between_trans_iff (P := fun sent => sent.1.createsServer = true →
      sent.2 = true) (addMissing_extends t hM w i) (foldl_addMissing_extends t hM is _)
    rw [List.foldl_cons, ih hnodup (addMissing_behind t hM h i) (notMem_addMissing t hM hi his),
      addMissing_mirrors_iff t hM h (his i List.mem_cons_self), and_assoc, CreatesSucceeded, hsplit]

/-- Commands that succeed link the missing server to everything. -/
theorem addMissing_linked {w : World State} {i : ℤ} (h : Succeeded w (addMissing t M w i)) :
    Linked M (addMissing t M w i) i := by
  have hadds : Succeeded (createServer t M w i) (addMissing t M w i) :=
    ((between_trans_iff (createServer_extends t M w i) (frame_addMissing t hM w i).log).mp h).2
  rw [addMissing_eq] at hadds
  have hlinks := links_addAll_of_succeeded hM w.objects hadds
  rw [← addMissing_eq] at hlinks
  rw [Linked, addMissing_createdMonitors t hM]
  exact ⟨fun service hs => hlinks service ((mem_objects w service).mpr (.inl hs)),
    fun monitor hm => hlinks monitor ((mem_objects w monitor).mpr (.inr hm))⟩

/-- The links of other servers stay as they are. -/
theorem addMissing_linked_other (w : World State) {i m : ℤ} (hm : m ≠ i) :
    Linked M (addMissing t M w i) m ↔ Linked M w m := by
  have hlinks : ∀ o, (m, o) ∈ M.links (addMissing t M w i).maxscale ↔
      (m, o) ∈ M.links w.maxscale := by
    intro o
    rw [addMissing_eq, links_addAll_other hM hm, (createServer_others t hM w i).2]
  simp only [Linked, addMissing_createdMonitors t hM, hlinks]

theorem foldl_addMissing_linked_other (is : List ℤ) (w : World State) {m : ℤ} (hm : m ∉ is) :
    Linked M (is.foldl (addMissing t M) w) m ↔ Linked M w m := by
  induction is generalizing w with
  | nil => rfl
  | cons i is ih =>
    rw [List.mem_cons, not_or] at hm
    rw [List.foldl_cons, ih _ hm.2, addMissing_linked_other t hM w hm.1]

theorem foldl_addMissing_created (is : List ℤ) (w : World State) (m : ℤ) :
    m ∈ (is.foldl (addMissing t M) w).createdServers ↔ m ∈ is ∨ m ∈ w.createdServers := by
  induction is generalizing w with
  | nil => simp
  | cons i is ih =>
    rw [List.foldl_cons, ih, addMissing_createdServers t hM, Finset.mem_insert, List.mem_cons]
    tauto

/-- A loop whose commands succeed links every missing server to everything. -/
theorem foldl_addMissing_linked (is : List ℤ) (hnodup : is.Nodup) {w : World State}
    (h : Succeeded w (is.foldl (addMissing t M) w)) :
    ∀ i ∈ is, Linked M (is.foldl (addMissing t M) w) i := by
  induction is generalizing w with
  | nil => exact fun _ => nofun
  | cons i is ih =>
    obtain ⟨hi, hnodup⟩ := List.nodup_cons.mp hnodup
    obtain ⟨hfirst, hrest⟩ := (between_trans_iff (addMissing_extends t hM w i)
      (foldl_addMissing_extends t hM is _)).mp h
    rw [List.foldl_cons, List.forall_mem_cons, foldl_addMissing_linked_other t hM is _ hi]
    exact ⟨addMissing_linked t hM hfirst, ih hnodup hrest⟩

/-! ### Runs -/

omit hM in
theorem mem_missing (N : ℤ) (w : World State) (i : ℤ) :
    i ∈ missing N w ↔ i ∈ backends N ∧ i ∉ w.createdServers := by
  simp [missing]

omit hM in
theorem nodup_missing (N : ℤ) (w : World State) : (missing N w).Nodup :=
  (nodup_backends N).filter _

/-- From a mirror, a `reset` does what it should exactly under its condition. -/
theorem reset_iff {w : World State} (h : Mirrors M w) :
    Mirrors M (reset t M w) ∧ ResetCompletes t M w .reset ↔ Good t M w .reset := by
  have hmissing : ∀ i ∈ missing t.N w, i ∉ w.createdServers :=
    fun i hi => ((mem_missing t.N w i).mp hi).2
  have hmirrors := foldl_addMissing_mirrors_iff t hM _ (nodup_missing t.N w) h.behind hmissing
  rw [← reset_eq t hM] at hmirrors
  rw [hmirrors, Good]
  simp only [h, true_and]
  apply and_congr_right
  -- from here on every missing server has been created
  intro hcreate
  rw [ResetCompletes]
  apply imp_congr_right
  intro hall
  have hlinked : ∀ i ∈ missing t.N w, Linked M (reset t M w) i := by
    rw [reset_eq t hM] at hall ⊢
    exact foldl_addMissing_linked t hM _ (nodup_missing t.N w) hall
  have hservers : (reset t M w).createdServers = M.servers (reset t M w).maxscale :=
    (hmirrors.mpr ⟨h, hcreate⟩).1
  constructor
  · intro hcomplete i hi hcreated
    have hnot : i ∉ missing t.N w := fun hmem => hmissing i hmem hcreated
    have hafter := (hcomplete i hi).2
    rwa [reset_eq t hM, foldl_addMissing_linked_other t hM _ w hnot] at hafter
  · intro hold i hi
    by_cases hcreated : i ∈ w.createdServers
    · have hnot : i ∉ missing t.N w := fun hmem => hmissing i hmem hcreated
      refine ⟨?_, ?_⟩
      · rw [← hservers, reset_eq t hM, foldl_addMissing_created t hM]
        exact .inr hcreated
      · rw [reset_eq t hM, foldl_addMissing_linked_other t hM _ w hnot]
        exact hold i hi hcreated
    · have hmem : i ∈ missing t.N w := (mem_missing t.N w i).mpr ⟨hi, hcreated⟩
      refine ⟨?_, hlinked i hmem⟩
      rw [← hservers, reset_eq t hM, foldl_addMissing_created t hM]
      exact .inl hmem

/-- **Step.** From a mirror, an operation keeps it, and a `reset` completes the configuration,
    exactly when the operation meets its condition. -/
theorem step_iff {w : World State} (op : Op) (h : Mirrors M w) :
    Mirrors M (op.run t M w) ∧ ResetCompletes t M w op ↔ Good t M w op := by
  cases op with
  | createServer num =>
    exact (and_iff_left trivial).trans (createServer_mirrors_iff t hM h num)
  | destroyServer num =>
    exact (and_iff_left trivial).trans (destroyServer_mirrors_iff hM h num)
  | addServer num =>
    exact iff_of_true ⟨(frame_addServer hM w num).mirrors_iff.mpr h, trivial⟩ trivial
  | removeServer num =>
    exact iff_of_true ⟨(frame_removeServer hM w num).mirrors_iff.mpr h, trivial⟩ trivial
  | createMonitor name module interval =>
    exact (and_iff_left trivial).trans (createMonitor_mirrors_iff t hM h name module interval)
  | destroyMonitor name =>
    exact (and_iff_left trivial).trans (destroyMonitor_mirrors_iff hM h name)
  | reset => exact reset_iff t hM h

/-- **Runs.** Of a new object and a MaxScale without servers and monitors, whatever commands
    fail, a run keeps the mirror and completes every `reset` whose commands succeed exactly when
    all its operations meet their conditions. -/
theorem keepsMirror_iff {s : State} (hservers : M.servers s = ∅) (hmonitors : M.monitors s = ∅)
    (ops : List Op) :
    KeepsMirror t M s ops ↔ StepsHold (Op.run t M) (Good t M) (.start s) ops :=
  invariant_iff (Op.run t M) (fun _ op h => step_iff t hM op h)
    ⟨hservers.symm, hmonitors.symm⟩ ops

end Documented

/-! ### A MaxScale -/

/-- What a MaxScale knows, with the number of commands it has been sent. -/
structure Registry where
  commands : ℕ
  servers : Finset ℤ
  monitors : Finset String
  links : Finset (ℤ × String)
  deriving DecidableEq

/-- A command carried out. -/
def Registry.carryOut (r : Registry) : Command → Registry
  | .createServer num _ _ => { r with servers := insert num r.servers }
  | .destroyServer num =>
    { r with servers := r.servers.erase num, links := r.links.filter (·.1 ≠ num) }
  | .addServer num object => { r with links := insert (num, object) r.links }
  | .removeServer num object => { r with links := r.links.erase (num, object) }
  | .createMonitor name _ => { r with monitors := insert name r.monitors }
  | .alterMonitor _ _ _ | .restartMonitor _ => r
  | .destroyMonitor name =>
    { r with monitors := r.monitors.erase name, links := r.links.filter (·.2 ≠ name) }

/-- A MaxScale that carries out every command but those that `ok` lets fail. -/
def registry (ok : ℕ → Bool) : MaxScale Registry where
  exec r c :=
    let counted := { r with commands := r.commands + 1 }
    if ok r.commands then (true, counted.carryOut c) else (false, counted)
  servers := Registry.servers
  monitors := Registry.monitors
  links := Registry.links

/-- Nothing is known yet. -/
def Registry.empty : Registry := ⟨0, ∅, ∅, ∅⟩

theorem registry_documented (ok : ℕ → Bool) : (registry ok).Documented where
  succeeds r c h := by
    have hok : ok r.commands = true := by
      by_contra hnot
      simp [registry, hnot] at h
    cases c <;>
      simp [registry, hok, MaxScale.Effect, Registry.carryOut] <;> exact ⟨rfl, rfl⟩
  failsObjects r c h := by
    have hok : ¬ ok r.commands = true := by
      intro hok
      simp [registry, hok] at h
    constructor <;> simp [registry, hok]
  failsLinks r c h := by
    have hok : ¬ ok r.commands = true := by
      intro hok
      simp [registry, hok] at h
    simp [registry, hok]

/-- One backend. -/
def oneBackend : TestConnections := ⟨1, fun _ => "127.0.0.1", fun _ => 3306, "user", "password"⟩

/-- The run of one `reset`, with no command failing. -/
theorem keepsMirror_reset :
    KeepsMirror oneBackend (registry fun _ => true) .empty [.reset] ↔
      StepsHold (Op.run oneBackend (registry fun _ => true))
        (Good oneBackend (registry fun _ => true)) (.start .empty) [.reset] :=
  keepsMirror_iff oneBackend (registry_documented _) rfl rfl [.reset]

/-- A server whose creation fails is in the set, so that MaxScale does not have it; and a
    `reset` leaves a server without links that was created and not added. -/
theorem not_keepsMirror_create_reset :
    ¬ KeepsMirror oneBackend (registry fun n => n ≠ 0) .empty [.createServer 0, .reset] ∧
      ¬ KeepsMirror oneBackend (registry fun _ => true) .empty [.createServer 0, .reset] := by
  constructor
  · rintro ⟨hmirrors, -⟩
    exact absurd (hmirrors [.createServer 0] ⟨[.reset], rfl⟩) (by decide +kernel)
  · rintro ⟨-, hresets⟩
    have hreset := hresets [.createServer 0] .reset List.prefix_rfl
    exact absurd (hreset (by decide +kernel)) (by decide +kernel)

end MaxScaleSystemTest.Config
