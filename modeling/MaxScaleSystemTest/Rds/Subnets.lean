import MaxScaleSystemTest.Lib.Estate
import MaxScaleSystemTest.Lib.Json

namespace MaxScaleSystemTest.Rds.Subnets

open CString Estate Json

/-!
# Deletion of the subnets

`destroy_subnets` executes the command that deletes a subnet twice, and looks at the status of
the second one.  The command is taken to fit `cmd[1024]`.

* `issued_destroySubnets` — the deletes that are issued, whatever becomes of them;
* `destroySubnets_of_granted` — when no delete is refused, all subnets are deleted and the
  status says that they are not;
* `destroy_subnets_iff` — when there is one delete for each subnet, and the status is right.
-/

/-! ### The function -/

/-- The subnets that exist, and the deletes that have been issued. -/
structure Account where
  estate : Estate Bytes
  issued : List Bytes

/-- What becomes of the deletes, numbered as they are issued: the status of one of a subnet that
    exists, which is carried out if that is 0, and of one of a subnet that does not. -/
structure Outcomes where
  status : ℕ → ℤ
  missing : ℕ → { status : ℤ // status ≠ 0 }

section

variable (outcomes : Outcomes)

/-- `execute_cmd` on `aws ec2 delete-subnet`. -/
def deleteSubnet (account : Account) (id : Bytes) : ℤ × Account :=
  let n := account.issued.length
  let after : Account := { account with issued := account.issued ++ [id] }
  if id ∈ account.estate.existing then
    if outcomes.status n = 0 then (0, { after with estate := after.estate.delete id })
    else (outcomes.status n, after)
  else ((outcomes.missing n).val, after)

/-- The identifier that is printed into the command; NULL is printed as `(null)`. -/
def subnetId (subnet : Value) : Bytes := (stringValue (some subnet)).getD (ascii "(null)")

/-- The body of the loop. -/
def destroySubnet (run : ℤ × Account) (subnet : Value) : ℤ × Account :=
  let first := deleteSubnet outcomes run.2 (subnetId subnet)
  let second := deleteSubnet outcomes first.2 (subnetId subnet)
  if second.1 ≠ 0 then (-1, second.2) else (run.1, second.2)

/-- `destroy_subnets`: the status and the account afterwards. -/
def destroySubnets (subnetsIntern : Option Value) (account : Account) : ℤ × Account :=
  (elements subnetsIntern).foldl (destroySubnet outcomes) (0, account)

end

/-! ### What it should do -/

/-- The subnets that are to be deleted. -/
def subnetIds (subnetsIntern : Option Value) : List Bytes := (elements subnetsIntern).map subnetId

/-- There is one delete for each subnet, and the status is 0 if and only if all of them have been
    deleted. -/
def DestroysOnce (outcomes : Outcomes) (subnetsIntern : Option Value) (existing : Finset Bytes) :
    Prop :=
  let run := destroySubnets outcomes subnetsIntern ⟨⟨existing, []⟩, []⟩
  run.2.issued.Perm (subnetIds subnetsIntern) ∧
    (run.1 = 0 ↔ ∀ id ∈ subnetIds subnetsIntern, id ∈ existing ∧ id ∉ run.2.estate.existing)

/-! ### The deletes -/

section

variable {outcomes : Outcomes}

theorem issued_deleteSubnet (account : Account) (id : Bytes) :
    (deleteSubnet outcomes account id).2.issued = account.issued ++ [id] := by
  unfold deleteSubnet
  by_cases hexists : id ∈ account.estate.existing
  · rw [if_pos hexists]
    split <;> rfl
  · rw [if_neg hexists]

theorem issued_destroySubnet (run : ℤ × Account) (subnet : Value) :
    (destroySubnet outcomes run subnet).2.issued =
      run.2.issued ++ [subnetId subnet, subnetId subnet] := by
  have hboth : (deleteSubnet outcomes (deleteSubnet outcomes run.2 (subnetId subnet)).2
      (subnetId subnet)).2.issued = run.2.issued ++ [subnetId subnet, subnetId subnet] := by
    rw [issued_deleteSubnet, issued_deleteSubnet, List.append_assoc]
    rfl
  unfold destroySubnet
  dsimp only
  split <;> exact hboth

theorem length_twice (ids : List Bytes) :
    (ids.flatMap fun id => [id, id]).length = 2 * ids.length := by
  induction ids with
  | nil => rfl
  | cons id ids ih =>
    rw [List.flatMap_cons, List.length_append, ih]
    simp only [List.length_cons, List.length_nil]
    omega

/-- **The deletes.** Two are issued for every subnet, whatever becomes of them. -/
theorem issued_destroySubnets (subnetsIntern : Option Value) (account : Account) :
    (destroySubnets outcomes subnetsIntern account).2.issued =
      account.issued ++ (subnetIds subnetsIntern).flatMap fun id => [id, id] := by
  have hfold : ∀ (subnets : List Value) (run : ℤ × Account),
      (subnets.foldl (destroySubnet outcomes) run).2.issued =
        run.2.issued ++ (subnets.map subnetId).flatMap fun id => [id, id] := by
    intro subnets
    induction subnets with
    | nil => simp
    | cons subnet subnets ih =>
      intro run
      rw [List.foldl_cons, ih, issued_destroySubnet, List.append_assoc]
      rfl
  exact hfold _ (0, account)

/-- A delete that is not refused removes a subnet that exists; the next one of the same subnet
    fails. -/
theorem destroySubnet_of_granted (hgranted : ∀ n, outcomes.status n = 0) (run : ℤ × Account)
    {subnet : Value} (hexists : subnetId subnet ∈ run.2.estate.existing) :
    (destroySubnet outcomes run subnet).1 = -1 ∧
      (destroySubnet outcomes run subnet).2.estate = run.2.estate.delete (subnetId subnet) := by
  have hfirst : deleteSubnet outcomes run.2 (subnetId subnet) =
      (0, ⟨run.2.estate.delete (subnetId subnet), run.2.issued ++ [subnetId subnet]⟩) := by
    rw [deleteSubnet, if_pos hexists, if_pos (hgranted _)]
  have hgone : subnetId subnet ∉ (run.2.estate.delete (subnetId subnet)).existing :=
    Finset.notMem_erase _ _
  rw [destroySubnet, hfirst]
  simp only [deleteSubnet, if_neg hgone, if_pos (outcomes.missing _).property, and_self]

/-- **No refusal.** All subnets are deleted, and the status is not 0 if there are any. -/
theorem destroySubnets_of_granted (hgranted : ∀ n, outcomes.status n = 0)
    {subnetsIntern : Option Value} (hnodup : (subnetIds subnetsIntern).Nodup) {account : Account}
    (hexists : ∀ id ∈ subnetIds subnetsIntern, id ∈ account.estate.existing) :
    (destroySubnets outcomes subnetsIntern account).2.estate =
        account.estate.deleteAll (subnetIds subnetsIntern) ∧
      (subnetIds subnetsIntern ≠ [] →
        (destroySubnets outcomes subnetsIntern account).1 = -1) := by
  have hfold : ∀ (subnets : List Value) (run : ℤ × Account), (subnets.map subnetId).Nodup →
      (∀ id ∈ subnets.map subnetId, id ∈ run.2.estate.existing) →
      (subnets.foldl (destroySubnet outcomes) run).2.estate =
          run.2.estate.deleteAll (subnets.map subnetId) ∧
        (subnets.foldl (destroySubnet outcomes) run).1 = if subnets = [] then run.1 else -1 := by
    intro subnets
    induction subnets with
    | nil => exact fun run _ _ => ⟨rfl, rfl⟩
    | cons subnet subnets ih =>
      intro run hnodup hexists
      obtain ⟨hnew, hnodup⟩ := List.nodup_cons.mp hnodup
      obtain ⟨hfirst, hrest⟩ := List.forall_mem_cons.mp hexists
      obtain ⟨hstatus, hestate⟩ := destroySubnet_of_granted hgranted run hfirst
      -- the others still exist
      have hrest : ∀ id ∈ subnets.map subnetId,
          id ∈ (destroySubnet outcomes run subnet).2.estate.existing := by
        intro id hid
        rw [hestate]
        refine Finset.mem_erase.mpr ⟨?_, hrest id hid⟩
        rintro rfl
        exact hnew hid
      obtain ⟨hafter, hresult⟩ := ih _ hnodup hrest
      refine ⟨by rw [List.foldl_cons, hafter, hestate]; rfl, ?_⟩
      rw [List.foldl_cons, hresult, hstatus, if_neg (List.cons_ne_nil subnet subnets)]
      split <;> rfl
  obtain ⟨hestate, hstatus⟩ := hfold (elements subnetsIntern) (0, account) hnodup hexists
  refine ⟨hestate, fun hsome => ?_⟩
  have hsubnets : elements subnetsIntern ≠ [] := fun hnone => hsome (by rw [subnetIds, hnone]; rfl)
  rw [if_neg hsubnets] at hstatus
  exact hstatus

end

/-- **Once.** There is one delete for each subnet, and the right status, exactly when there are no
    subnets. -/
theorem destroy_subnets_iff (outcomes : Outcomes) (subnetsIntern : Option Value)
    (existing : Finset Bytes) :
    DestroysOnce outcomes subnetsIntern existing ↔ elements subnetsIntern = [] := by
  constructor
  · rintro ⟨honce, -⟩
    have hlength := honce.length_eq
    rw [issued_destroySubnets, List.nil_append, length_twice] at hlength
    have hnone : (subnetIds subnetsIntern).length = 0 := by omega
    exact List.map_eq_nil_iff.mp (List.eq_nil_of_length_eq_zero hnone)
  · intro hnone
    simp [DestroysOnce, destroySubnets, subnetIds, hnone]

/-- Deletes that are not refused. -/
def granted : Outcomes := ⟨fun _ => 0, fun _ => ⟨255, by decide⟩⟩

/-- One subnet is deleted twice, and the status says that it could not be deleted. -/
theorem one_subnet_deleted_twice :
    ¬ DestroysOnce granted (some (.array [.string (ascii "subnet-1")])) {ascii "subnet-1"} := by
  rw [destroy_subnets_iff]
  exact List.cons_ne_nil _ _

end MaxScaleSystemTest.Rds.Subnets
